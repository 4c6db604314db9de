import EmbedUI.Dashboard.Basic
import EmbedUI.Text.Keyword

/-!
# Words that ask for widgets

Five words each stand for a widget with sample data. A dashboard description gets the widgets whose
words it mentions, in the order of the dictionary.
-/

namespace EmbedUI.Description

open EmbedUI.Dashboard

def usersWidget : Widget := .metric "Total Users" ⟨"1,234", "Active users"⟩

def activityWidget : Widget :=
  .list "Recent Activities" ⟨["User login", "Data update", "Report generated"]⟩

/-- The words and their widgets. -/
def widgetDictionary : List (String × Widget) :=
  [("user", usersWidget),
    ("sales", .metric "Total Sales" ⟨"$45,678", "This month"⟩),
    ("revenue", .metric "Revenue" ⟨"$12,345", "This week"⟩),
    ("activity", activityWidget),
    ("chart", .chart "Sales Chart"
      (.ofSeries ⟨[100.0, 150.0, 200.0, 175.0], ["Q1", "Q2", "Q3", "Q4"]⟩))]

/-- The widgets that a lowered description asks for. -/
def dashboardWidgets (text : List Char) : List Widget :=
  match widgetDictionary.filter fun entry => Text.mentions text entry.1 with
  | [] => [usersWidget, activityWidget]
  | entries => entries.map Prod.snd

end EmbedUI.Description

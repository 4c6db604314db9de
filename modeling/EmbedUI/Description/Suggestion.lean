import EmbedUI.Component.Kind
import EmbedUI.Text.Keyword

/-!
# Suggestions

A partial description is answered with fuller ones. There are four groups of them, each with the
words that call it up; every group that is called up contributes all of its suggestions.
-/

namespace EmbedUI.Description

structure SuggestionGroup where
  words : List String
  suggestions : List String

def suggestionGroups : List SuggestionGroup :=
  [⟨["form", "input"],
      ["Contact form with name, email, and message fields",
        "Registration form with username, password, and confirm password",
        "Survey form with multiple choice questions"]⟩,
    ⟨["dashboard", "widget"],
      ["Analytics dashboard with user metrics and charts",
        "Sales dashboard with revenue and conversion metrics",
        "Project management dashboard with tasks and progress"]⟩,
    ⟨["chart", "graph"],
      ["Bar chart showing monthly sales data",
        "Pie chart displaying user demographics",
        "Line chart tracking website traffic over time"]⟩,
    ⟨["card", "profile"],
      ["User profile card with avatar and stats",
        "Product card with image, title, and price",
        "Team member card with role and contact info"]⟩]

/-- The suggestions for a description, in the order of the groups. -/
def suggestions (description : String) : List String :=
  let text := Text.lowered description
  (suggestionGroups.filter fun g => Text.mentionsAny text g.words).flatMap
    SuggestionGroup.suggestions

/-- What each kind of component is, in one line. -/
def summary : ComponentKind → String
  | .form => "A form component with customizable fields"
  | .dashboard => "A dashboard with widgets and metrics"
  | .chart => "A data visualization chart"
  | .custom => "A custom HTML component"

end EmbedUI.Description

/-!
# Types of actions

Embedded content may ask its host for five things. The names of the types are the vocabulary that
the two sides share: the script of a component lists them, and the host accepts no others.
-/

namespace EmbedUI

inductive ActionType where
  | tool
  | notify
  | formSubmit
  | dashboardRefresh
  | chartExport
deriving DecidableEq, Repr

namespace ActionType

def all : List ActionType := [tool, notify, formSubmit, dashboardRefresh, chartExport]

def name : ActionType → String
  | tool => "tool"
  | notify => "notify"
  | formSubmit => "form-submit"
  | dashboardRefresh => "dashboard-refresh"
  | chartExport => "chart-export"

/-- The type with a name. -/
def ofName? (s : String) : Option ActionType := all.find? fun t => t.name = s

theorem ofName?_name (t : ActionType) : ofName? t.name = some t := by cases t <;> rfl

end ActionType

end EmbedUI

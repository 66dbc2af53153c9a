import Listbox.Settings.Named
import Listbox.Text.Record

set_option autoImplicit false

/-! # The text of models and navigators

What a log says of a selection model or a navigator: a record of what matters most, left open for
the rest. -/

universe u v

namespace Listbox

open Text

variable {K : Type u} {T : Type v}

/-- A key set as a record. -/
def KeySet.describe (quote : K → String) (s : KeySet K) : String :=
  record "KeySet" [
    ("items", Text.list (s.items.map quote)),
    ("anchor", optional (s.anchor.map quote)),
    ("current", optional (s.current.map quote))]

def Selection.describe (quote : K → String) : Selection K → String
  | .all => "All"
  | .keys s => "Keys(" ++ s.describe quote ++ ")"

def NavigationConfig.describe (c : NavigationConfig) : String :=
  record "KeyboardConfig" [
    ("orientation", Named.name c.orientation),
    ("layout", Named.name c.arrangement),
    ("direction", Named.name c.direction),
    ("page_size", toString c.pageSize),
    ("should_focus_wrap", Text.bool c.wraps)]

variable [DecidableEq K] [Hashable K]

def SelectionModel.describe (quote : K → String) (m : SelectionModel K T) : String :=
  openRecord "SelectionManager" [
    ("mode", Named.name m.mode),
    ("behavior", Named.name m.behavior),
    ("selection", m.selection.describe quote),
    ("controlled", Text.bool m.controlled),
    ("focused_key", optional (m.focus.key.map quote)),
    ("focused", Text.bool m.focus.inside),
    ("revision", toString m.revision)]

def Navigator.describe (v : Navigator K T) : String :=
  openRecord "ListKeyboardDelegate" [
    ("len", toString v.collection.size),
    ("disabled_behavior", Named.name v.disabledBehavior),
    ("config", v.config.describe),
    ("has_layout", Text.bool v.layout.isSome)]

end Listbox

import Listbox.Settings.Named
import Listbox.Settings.Value

set_option autoImplicit false

/-! # Reading and writing configurations

A configuration is written as a table with all its fields. It is read from a table in which any field
may be missing, and then has its default, and in which fields with other names do not matter; or from
a list with the values of the first few fields. One field of the wrong form spoils the whole. -/

namespace Listbox

open Setting

/-- An alternative from its word. -/
def Named.read? {α : Type} [Named α] (s : Setting) : Option α := s.word?.bind Named.ofName?

/-- The word of an alternative. -/
def Named.write {α : Type} [Named α] (a : α) : Setting := .text (Named.name a)

namespace SelectionConfig

variable {K : Type}

/-- The fields in order. -/
def fieldNames : List String :=
  ["mode", "behavior", "disallow_empty_selection", "disabled_keys", "disabled_behavior",
   "link_behavior", "allow_duplicate_selection_events"]

def read? (key : Setting → Option K) (s : Setting) : Option (SelectionConfig K) := do
  let fields ← s.record? fieldNames
  let d : SelectionConfig K := {}
  let keys := fun s => (Setting.list? s).bind (·.mapM key)
  return {
    mode := ← fieldOr fields "mode" Named.read? d.mode
    behavior := ← fieldOr fields "behavior" Named.read? d.behavior
    disallowEmpty := ← fieldOr fields "disallow_empty_selection" bool? d.disallowEmpty
    disabledKeys := ← fieldOr fields "disabled_keys" keys d.disabledKeys
    disabledBehavior := ← fieldOr fields "disabled_behavior" Named.read? d.disabledBehavior
    linkBehavior := ← fieldOr fields "link_behavior" Named.read? d.linkBehavior
    allowRepeats := ← fieldOr fields "allow_duplicate_selection_events" bool? d.allowRepeats }

def write (key : K → Setting) (c : SelectionConfig K) : Setting :=
  .table [
    ("mode", Named.write c.mode),
    ("behavior", Named.write c.behavior),
    ("disallow_empty_selection", .bool c.disallowEmpty),
    ("disabled_keys", .list (c.disabledKeys.map key)),
    ("disabled_behavior", Named.write c.disabledBehavior),
    ("link_behavior", Named.write c.linkBehavior),
    ("allow_duplicate_selection_events", .bool c.allowRepeats)]

end SelectionConfig

namespace NavigationConfig

/-- The fields in order. -/
def fieldNames : List String :=
  ["orientation", "layout", "direction", "page_size", "should_focus_wrap"]

def read? (s : Setting) : Option NavigationConfig := do
  let fields ← s.record? fieldNames
  let d : NavigationConfig := {}
  return {
    orientation := ← fieldOr fields "orientation" Named.read? d.orientation
    arrangement := ← fieldOr fields "layout" Named.read? d.arrangement
    direction := ← fieldOr fields "direction" Named.read? d.direction
    pageSize := ← fieldOr fields "page_size" natural? d.pageSize
    wraps := ← fieldOr fields "should_focus_wrap" bool? d.wraps }

def write (c : NavigationConfig) : Setting :=
  .table [
    ("orientation", Named.write c.orientation),
    ("layout", Named.write c.arrangement),
    ("direction", Named.write c.direction),
    ("page_size", .int c.pageSize),
    ("should_focus_wrap", .bool c.wraps)]

end NavigationConfig

namespace PressConfig

/-- The fields in order. -/
def fieldNames : List String :=
  ["double_click_ms", "long_press_ms", "slop"]

def read? (s : Setting) : Option PressConfig := do
  let fields ← s.record? fieldNames
  let d : PressConfig := {}
  return {
    doubleClick := ← fieldOr fields "double_click_ms" natural? d.doubleClick
    longPress := ← fieldOr fields "long_press_ms" natural? d.longPress
    slop := ← fieldOr fields "slop" float? d.slop }

def write (c : PressConfig) : Setting :=
  .table [
    ("double_click_ms", .int c.doubleClick),
    ("long_press_ms", .int c.longPress),
    ("slop", .real c.slop)]

end PressConfig

namespace InteractionConfig

/-- The fields in order. -/
def fieldNames : List String :=
  ["has_action", "toggle_action_policy", "escape_key_behavior", "platform", "select_on_press_up",
   "disallow_select_all", "disallow_typeahead", "keyboard", "press"]

def read? (s : Setting) : Option InteractionConfig := do
  let fields ← s.record? fieldNames
  let d : InteractionConfig := {}
  return {
    hasAction := ← fieldOr fields "has_action" bool? d.hasAction
    toggleActionPolicy := ← fieldOr fields "toggle_action_policy" Named.read? d.toggleActionPolicy
    escapeKeyBehavior := ← fieldOr fields "escape_key_behavior" Named.read? d.escapeKeyBehavior
    platform := ← fieldOr fields "platform" Named.read? d.platform
    selectOnPressUp := ← fieldOr fields "select_on_press_up" bool? d.selectOnPressUp
    disallowSelectAll := ← fieldOr fields "disallow_select_all" bool? d.disallowSelectAll
    disallowTypeahead := ← fieldOr fields "disallow_typeahead" bool? d.disallowTypeahead
    navigation := ← fieldOr fields "keyboard" NavigationConfig.read? d.navigation
    press := ← fieldOr fields "press" PressConfig.read? d.press }

def write (c : InteractionConfig) : Setting :=
  .table [
    ("has_action", .bool c.hasAction),
    ("toggle_action_policy", Named.write c.toggleActionPolicy),
    ("escape_key_behavior", Named.write c.escapeKeyBehavior),
    ("platform", Named.write c.platform),
    ("select_on_press_up", .bool c.selectOnPressUp),
    ("disallow_select_all", .bool c.disallowSelectAll),
    ("disallow_typeahead", .bool c.disallowTypeahead),
    ("keyboard", c.navigation.write),
    ("press", c.press.write)]

end InteractionConfig

end Listbox

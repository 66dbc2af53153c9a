import Listbox.Collection.Rebuild

set_option autoImplicit false

/-! # Tests for filtering

A `NodeTest` is a filter that can be written down. Most tests look at the node alone; the last two
look only at how many questions came before. -/

universe u v

namespace Listbox

/-- Whether the characters `s` stand somewhere in a text, one after the other. -/
def occursIn (s : List Char) : List Char → Bool
  | [] => s.isEmpty
  | c :: cs => s.isPrefixOf (c :: cs) || occursIn s cs

/-- A test of nodes. -/
inductive NodeTest (K : Type u) where
  | always
  | never
  | textStarts (s : String)
  | textContains (s : String)
  /-- The text takes at most so many bytes in UTF-8. -/
  | textBytes (bound : Nat)
  | keyIn (ks : List K)
  | keyNotIn (ks : List K)
  | enabled
  | link
  | level (n : Nat)
  | valueAtLeast (bound : Int)
  | hasChildren
  /-- One of the first `n` questions. -/
  | firstCalls (n : Nat)
  /-- Every other question, beginning with the first. -/
  | everyOtherCall

namespace NodeTest

variable {K : Type u} [DecidableEq K]

/-- The answer about a node after `calls` other questions. -/
def holds (t : NodeTest K) (calls : Nat) (n : Node K Int) : Bool :=
  match t with
  | .always => true
  | .never => false
  | .textStarts s => s.toList.isPrefixOf n.text.toList
  | .textContains s => occursIn s.toList n.text.toList
  | .textBytes bound => n.text.utf8ByteSize ≤ bound
  | .keyIn ks => ks.contains n.key
  | .keyNotIn ks => !ks.contains n.key
  | .enabled => !n.disabled
  | .link => n.isLink
  | .level k => n.level == k
  | .valueAtLeast bound => n.value.any (bound ≤ ·)
  | .hasChildren => n.hasChildren
  | .firstCalls k => calls < k
  | .everyOtherCall => calls % 2 == 0

end NodeTest

/-- The collection filtered by a test, and the keys that the test was asked about, in order. -/
def Collection.filterBy {K : Type u} [DecidableEq K] [Hashable K] (c : Collection K Int)
    (t : NodeTest K) : Collection K Int × List K :=
  let ask := fun (s : Nat × List K) n => (t.holds s.1 n, s.1 + 1, n.key :: s.2)
  let (filtered, _, asked) := c.filterWith ask (0, [])
  (filtered, asked.reverse)

end Listbox

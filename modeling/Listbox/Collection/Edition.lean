import Listbox.Collection.Basic

set_option autoImplicit false

/-! # Editions

Two collections with the same rows need not be the same publication. An `Edition` is a collection
under the number it was published with, and two editions are the same exactly if their numbers are:
whoever holds one can tell without comparing rows whether it has been replaced. -/

universe u v

namespace Listbox

/-- A collection and the number it was published under. -/
structure Edition (K : Type u) (T : Type v) [DecidableEq K] [Hashable K] where
  number : Nat
  collection : Collection K T

/-- Everything published so far, in order. The number of an edition is its place. -/
structure Archive (K : Type u) (T : Type v) [DecidableEq K] [Hashable K] where
  published : Array (Collection K T)

namespace Archive

variable {K : Type u} {T : Type v} [DecidableEq K] [Hashable K]

/-- The archive whose only edition is `c`. -/
def ofCollection (c : Collection K T) : Archive K T := ⟨#[c]⟩

/-- Publishes `c` under the next number. -/
def publish (a : Archive K T) (c : Collection K T) : Edition K T × Archive K T :=
  (⟨a.published.size, c⟩, ⟨a.published.push c⟩)

/-- The edition with a number. -/
def edition? (a : Archive K T) (number : Nat) : Option (Edition K T) :=
  a.published[number]?.map fun c => ⟨number, c⟩

@[simp] theorem edition?_publish (a : Archive K T) (c : Collection K T) :
    (a.publish c).2.edition? (a.publish c).1.number = some (a.publish c).1 := by
  simp [publish, edition?]

end Archive

end Listbox

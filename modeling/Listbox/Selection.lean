import Listbox.KeySet

set_option autoImplicit false

/-! # Selections

A `Selection` is a key set or the word "all", which stands for every row that can be selected at the
time of asking. Which rows those are is for the selection model to say, so the two never count as
equal here. -/

universe u

namespace Listbox

/-- What is selected. -/
inductive Selection (K : Type u) where
  /-- Everything that can be selected. -/
  | all
  | keys (keys : KeySet K)
  deriving DecidableEq

namespace Selection

variable {K : Type u}

/-- Nothing. -/
def empty : Selection K := .keys .empty

instance : EmptyCollection (Selection K) := ⟨empty⟩

instance : Inhabited (Selection K) := ⟨empty⟩

def isAll : Selection K → Bool
  | all => true
  | keys _ => false

/-- Whether the selection is a key set without keys. -/
def isEmpty : Selection K → Bool
  | all => false
  | keys s => s.isEmpty

/-- Whether both are everything, or both are key sets with the same members. -/
def same [DecidableEq K] : Selection K → Selection K → Bool
  | all, all => true
  | keys s, keys t => s.sameKeys t
  | _, _ => false

/-- Like `same`, with a hash table on the side. -/
def sameHashed [DecidableEq K] [Hashable K] : Selection K → Selection K → Bool
  | all, all => true
  | keys s, keys t => s.sameKeysHashed t
  | _, _ => false

end Selection

end Listbox

import Listbox.Text.Collator
import Mathlib.Data.Char
import Mathlib.Data.List.Infix

set_option autoImplicit false

/-! # Collation by lower case

Ignoring case compares texts by their folds, the lower-case forms of their characters one after the
other, as sequences of code points. So texts count as the same exactly if they have one fold. Whether a
text starts with another is decided on as many characters as the other has before folding, and that is
stricter than to ask for the start of a fold: the two agree where every character has a lower-case form
of one character (`collation_compares_folds`). The tables of lower-case forms do not matter for this. -/

namespace Listbox

open Text (fold lowercase)

/-! ## Sequences of code points -/

/-- Comparing sequences is the lexicographic order. -/
theorem compare_lists_eq_lt_iff {as bs : List Char} : compare as bs = .lt ↔ as < bs := by
  induction as generalizing bs with
  | nil =>
    cases bs with
    | nil => simp
    | cons b bs => simp
  | cons a as ih =>
    cases bs with
    | nil => simp
    | cons b bs =>
      rw [List.compare_cons_cons, Ordering.then_eq_lt, ih, compare_lt_iff_lt,
        Std.LawfulEqCmp.compare_eq_iff_eq, List.cons_lt_cons_iff]

theorem length_flatMap_of_one {α β : Type} {f : α → List β} {l : List α}
    (h : ∀ a ∈ l, (f a).length = 1) : (l.flatMap f).length = l.length := by
  induction l with
  | nil => rfl
  | cons a as ih =>
    rw [List.flatMap_cons, List.length_append, List.length_cons, h a List.mem_cons_self,
      ih fun b hb => h b (List.mem_cons_of_mem a hb), Nat.add_comm]

namespace Collator

variable {p t s : String} {n : Nat}

/-! ## Cutting -/

theorem toList_cut (n : Nat) (s : String) : (cut n s).toList = s.toList.take n :=
  String.toList_ofList

theorem cut_append (p s : String) : cut p.length (p ++ s) = p := by
  rw [cut, String.toList_append, ← String.length_toList, List.take_left, String.ofList_toList]

/-- The fold of the start of a text is the start of its fold. -/
theorem fold_cut_isPrefix_fold (n : Nat) (t : String) : fold (cut n t) <+: fold t := by
  rw [fold, toList_cut]
  exact (List.take_prefix ..).flatMap _

/-- Where the characters of a text begin, counted in bytes on from `start`. -/
def offsets (start : Nat) : List Char → List Nat
  | [] => []
  | c :: cs => start :: offsets (start + c.utf8Size) cs

/-- Where the character number `n` begins, counted in bytes, or where the text ends if it has no more
than `n` characters. -/
def boundary (n : Nat) (s : String) : Nat := (offsets 0 s.toList)[n]?.getD s.utf8ByteSize

theorem utf8ByteSize_ofList_cons (c : Char) (cs : List Char) :
    (String.ofList (c :: cs)).utf8ByteSize = c.utf8Size + (String.ofList cs).utf8ByteSize := by
  rw [String.ofList_cons, String.utf8ByteSize_append, String.utf8ByteSize_singleton]

/-- What stands before the character number `n`, or before the end, has this many bytes. -/
theorem getD_offsets (start n : Nat) (cs : List Char) :
    (offsets start cs)[n]?.getD (start + (String.ofList cs).utf8ByteSize) =
      start + (String.ofList (cs.take n)).utf8ByteSize := by
  induction cs generalizing start n with
  | nil => rw [List.take_nil, offsets, List.getElem?_nil, Option.getD_none]
  | cons c cs ih =>
    cases n with
    | zero => rfl
    | succ n =>
      rw [offsets, List.getElem?_cons_succ, List.take_succ_cons, utf8ByteSize_ofList_cons,
        utf8ByteSize_ofList_cons, ← Nat.add_assoc, ← Nat.add_assoc]
      exact ih (start + c.utf8Size) n

theorem boundary_eq (n : Nat) (s : String) : boundary n s = (cut n s).utf8ByteSize := by
  have h := getD_offsets 0 n s.toList
  rw [String.ofList_toList, Nat.zero_add, Nat.zero_add] at h
  exact h

/-- A cut is between two characters. -/
theorem isValid_boundary (n : Nat) (s : String) : String.Pos.Raw.IsValid s ⟨boundary n s⟩ :=
  String.Pos.Raw.isValid_iff_exists_take_toList.2 ⟨n, boundary_eq n s⟩

/-- Cutting off characters is cutting off bytes there. -/
theorem toByteArray_cut (n : Nat) (s : String) :
    (cut n s).toByteArray = s.toByteArray.extract 0 (boundary n s) := by
  have hsplit : s = cut n s ++ String.ofList (s.toList.drop n) := by
    rw [cut, ← String.ofList_append, List.take_append_drop, String.ofList_toList]
  have hsize : boundary n s = (cut n s).toByteArray.size := by
    rw [boundary_eq, String.size_toByteArray]
  have hbytes : s.toByteArray =
      (cut n s).toByteArray ++ (String.ofList (s.toList.drop n)).toByteArray := by
    rw [← String.toByteArray_append, ← hsplit]
  rw [hbytes, ByteArray.extract_append_eq_left hsize]

/-! ## Comparing and starting with -/

theorem caseInsensitive_eq_lt_iff : caseInsensitive.compare s t = .lt ↔ fold s < fold t :=
  compare_lists_eq_lt_iff

theorem caseInsensitive_eq_eq_iff : caseInsensitive.compare s t = .eq ↔ fold s = fold t :=
  Std.LawfulEqOrd.compare_eq_iff_eq (a := fold s)

/-- Comparing by folds is reflexive, total and transitive. -/
theorem transCmp_caseInsensitive : Std.TransCmp caseInsensitive.compare where
  eq_swap {s t} := Std.OrientedOrd.eq_swap (a := fold s) (b := fold t)
  isLE_trans {s t u} := Std.TransOrd.isLE_trans (a := fold s) (b := fold t) (c := fold u)

theorem isPrefixOf_iff_compare : caseInsensitive.isPrefixOf p t = true ↔
    caseInsensitive.compare (cut p.length t) p = .eq :=
  beq_iff_eq

theorem isPrefixOf_iff :
    caseInsensitive.isPrefixOf p t = true ↔ fold (cut p.length t) = fold p := by
  rw [isPrefixOf_iff_compare, caseInsensitive_eq_eq_iff]

/-- What a text starts with, its fold starts with. -/
theorem fold_prefix_of_isPrefixOf (h : caseInsensitive.isPrefixOf p t = true) :
    fold p <+: fold t := by
  rw [← isPrefixOf_iff.1 h]
  exact fold_cut_isPrefix_fold ..

/-- Where every character has a lower-case form of one character, a fold that starts with another is
that of a text that starts with the other. -/
theorem isPrefixOf_of_fold_prefix (hp : ∀ c ∈ p.toList, (lowercase c).length = 1)
    (ht : ∀ c ∈ t.toList.take p.length, (lowercase c).length = 1) (h : fold p <+: fold t) :
    caseInsensitive.isPrefixOf p t = true := by
  rw [isPrefixOf_iff]
  have hlength : (fold p).length = p.length := length_flatMap_of_one hp
  have hcut : (fold (cut p.length t)).length = (t.toList.take p.length).length := by
    rw [fold, toList_cut]
    exact length_flatMap_of_one ht
  -- `t` is at least as long as `p`, for otherwise all its characters have short folds
  have hlong : p.length ≤ t.toList.length := by
    by_contra hshort
    have hwhole : t.toList.take p.length = t.toList := List.take_of_length_le (by omega)
    rw [fold, toList_cut, hwhole] at hcut
    have hle := h.length_le
    rw [hlength, show (fold t).length = t.toList.length from hcut] at hle
    exact hshort hle
  have hsame : (fold (cut p.length t)).length = (fold p).length := by
    rw [hcut, hlength, List.length_take, Nat.min_eq_left hlong]
  exact List.IsPrefix.eq_of_length
    (List.prefix_of_prefix_length_le (fold_cut_isPrefix_fold ..) h (Nat.le_of_eq hsame)) hsame

/-- **Collation.** Ignoring case orders texts as their folds are ordered lexicographically, so it is a
total preorder in which texts with one fold count as the same. What a text starts with, its fold starts
with, and conversely where no character involved has a longer lower-case form; every text starts with
its beginnings. What is compared is the text up to a boundary between characters. -/
theorem collation_compares_folds (p t : String) :
    (caseInsensitive.compare p t = .lt ↔ fold p < fold t) ∧
    (caseInsensitive.compare p t = .eq ↔ fold p = fold t) ∧
    (caseInsensitive.compare p t = .gt ↔ fold t < fold p) ∧
    Std.TransCmp caseInsensitive.compare ∧
    (caseInsensitive.isPrefixOf p t = true → fold p <+: fold t) ∧
    ((∀ c ∈ p.toList, (lowercase c).length = 1) →
      (∀ c ∈ t.toList.take p.length, (lowercase c).length = 1) →
      fold p <+: fold t → caseInsensitive.isPrefixOf p t = true) ∧
    (∀ s, caseInsensitive.isPrefixOf p (p ++ s) = true) ∧
    String.Pos.Raw.IsValid t ⟨boundary p.length t⟩ ∧
    (∃ start : String, start.toByteArray = t.toByteArray.extract 0 (boundary p.length t) ∧
      (caseInsensitive.isPrefixOf p t = true ↔ caseInsensitive.compare start p = .eq)) := by
  have horder := transCmp_caseInsensitive
  refine ⟨caseInsensitive_eq_lt_iff, caseInsensitive_eq_eq_iff, ?_, horder,
    fold_prefix_of_isPrefixOf, isPrefixOf_of_fold_prefix, fun s => ?_, isValid_boundary ..,
    cut p.length t, toByteArray_cut .., isPrefixOf_iff_compare⟩
  · rw [Std.OrientedCmp.gt_iff_lt, caseInsensitive_eq_lt_iff]
  · rw [isPrefixOf_iff, cut_append]

/-- The first letters of a fruit, in capitals and not, found from its fold and found again in it,
and two letters from its middle, which it does not start with; and two fruits in the order of their
folds, which is not the order of their characters. -/
theorem collation_compares_folds_banana :
    (∀ c ∈ "ba".toList, (lowercase c).length = 1) ∧
      (∀ c ∈ "BAnana".toList.take "ba".length, (lowercase c).length = 1) ∧
      fold "ba" <+: fold "BAnana" ∧ caseInsensitive.isPrefixOf "ba" "BAnana" = true ∧
      caseInsensitive.isPrefixOf "BA" ("BA" ++ "nana") = true ∧
      caseInsensitive.compare "BAnana" "baNANA" = .eq ∧
      fold "apple" < fold "BAnana" ∧ "BAnana" < "apple" ∧
      caseInsensitive.compare "apple" "BAnana" = .lt ∧
      caseInsensitive.compare "BAnana" "apple" = .gt ∧
      ¬ fold "an" <+: fold "BAnana" ∧ caseInsensitive.isPrefixOf "an" "BAnana" = false := by
  -- decided along the list, since there are too many characters to go through them all
  have hones : ∀ l : List Char, (l.all fun c => (lowercase c).length == 1) = true →
      ∀ c ∈ l, (lowercase c).length = 1 :=
    fun l hall c hc => beq_iff_eq.1 (List.all_eq_true.1 hall c hc)
  have hshort := hones "ba".toList (by decide)
  have hstart := hones ("BAnana".toList.take "ba".length) (by decide)
  have hfold : fold "ba" <+: fold "BAnana" := by decide
  have hsame : fold "BAnana" = fold "baNANA" := by decide
  obtain ⟨-, -, -, -, -, hprefix, -⟩ := collation_compares_folds "ba" "BAnana"
  obtain ⟨-, -, -, -, -, -, hstarts, -⟩ := collation_compares_folds "BA" "BAnana"
  obtain ⟨-, hequal, -⟩ := collation_compares_folds "BAnana" "baNANA"
  have hless : fold "apple" < fold "BAnana" := by decide
  have hmiddle : ¬ fold "an" <+: fold "BAnana" := by decide
  obtain ⟨hbefore, -⟩ := collation_compares_folds "apple" "BAnana"
  obtain ⟨-, -, hafter, -⟩ := collation_compares_folds "BAnana" "apple"
  obtain ⟨-, -, -, -, hfound, -⟩ := collation_compares_folds "an" "BAnana"
  exact ⟨hshort, hstart, hfold, hprefix hshort hstart hfold, hstarts "nana", hequal.2 hsame,
    hless, by decide, hbefore.2 hless, hafter.2 hless, hmiddle,
    Bool.eq_false_iff.2 fun h => hmiddle (hfound h)⟩

-- a capital I with a dot has a lower-case form of two characters, so its fold is found and it is not
example : fold "\u0130" <+: fold "i\u0307" ∧
    caseInsensitive.isPrefixOf "\u0130" "i\u0307" = false := by decide

end Collator

end Listbox

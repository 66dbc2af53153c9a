import Listbox.Proofs.Searching
import Listbox.Typeahead

set_option autoImplicit false

/-! # Typing

Of what was typed, only what is not too old counts (`live`). A character goes on from that, and if
nothing starts with both, it starts anew by itself. As a search fails only if there is nothing to
find, what a character comes to depends on which texts some focusable row starts with
(`input_searches`).

The buffer and the time of its last character are kept apart. Whatever is typed, at whatever times and
over whatever list, there is a time exactly if there is a buffer (`Reached.stamped`). -/

universe u v

namespace Listbox.Typeahead

section

variable {K : Type u} {t : Typeahead} {n : Navigable K} {focused : Option K} {c : Char} {now : Nat}

/-- What counts of the buffer at a time: all of it, unless the pause since its last character is too
long. -/
def live (t : Typeahead) (now : Nat) : String :=
  match t.lastInput with
  | none => ""
  | some last => if now - last < t.timeout then t.buffer else ""

/-- The state once an outdated buffer has been forgotten. -/
def refresh (t : Typeahead) (now : Nat) : Typeahead := if t.isExpired now then t.reset else t

/-- The state after a search for `text`. -/
def searched (t : Typeahead) (text : String) (now : Nat) : Typeahead :=
  { t with buffer := text, lastInput := some now }

theorem buffer_refresh (t : Typeahead) (now : Nat) : (t.refresh now).buffer = t.live now := by
  unfold refresh isExpired live
  cases t.lastInput with
  | none => rfl
  | some last =>
    by_cases hlive : now - last < t.timeout
    · simp [hlive, Nat.not_le.2 hlive]
    · simp [hlive, Nat.not_lt.1 hlive, reset]

theorem reset_refresh (t : Typeahead) (now : Nat) : (t.refresh now).reset = t.reset := by
  unfold refresh
  split <;> rfl

theorem searched_refresh (t : Typeahead) (text : String) (now : Nat) :
    (t.refresh now).searched text now = t.searched text now := by
  unfold refresh
  split <;> rfl

/-! ## One character -/

theorem input_of_isControl (h : Text.isControl c = true) : t.input n focused c now = (.ignored, t) := by
  rw [input, if_pos h]

theorem input_of_isBlank (hblank : Text.isBlank (t.live now) = true) :
    t.input n focused ' ' now = (.ignored, t.refresh now) := by
  rw [← buffer_refresh] at hblank
  rw [input, if_neg (show ¬ Text.isControl ' ' = true by decide)]
  exact if_pos ⟨rfl, hblank⟩

theorem input_of_text (hc : Text.isControl c = false)
    (hspace : ¬ (c = ' ' ∧ Text.isBlank (t.live now) = true)) :
    t.input n focused c now =
      match find? n focused (!(t.live now).isEmpty) ((t.live now).push c) with
      | some k => (.focus k, t.searched ((t.live now).push c) now)
      | none =>
        match if !(t.live now).isEmpty then n.search? (.singleton c) focused else none with
        | some k => (.focus k, t.searched (.singleton c) now)
        | none => (.noMatch, t.reset) := by
  -- whatever is left in the buffer is written anew, so an outdated one may be forgotten before
  simp only [← buffer_refresh, ← reset_refresh t now, ← searched_refresh t _ now] at hspace ⊢
  rw [input, if_neg (Bool.eq_false_iff.1 hc)]
  exact if_neg hspace

/-- A character leaves the state alone, makes it forget the buffer, or leaves a text in it. -/
theorem input_cases (t : Typeahead) (n : Navigable K) (focused : Option K) (c : Char) (now : Nat) :
    (t.input n focused c now).2 = t ∨ (t.input n focused c now).2 = t.reset ∨
      ∃ text, text ≠ "" ∧ (t.input n focused c now).2 = t.searched text now := by
  cases hc : Text.isControl c with
  | true =>
    rw [input_of_isControl hc]
    exact Or.inl rfl
  | false =>
    by_cases hspace : c = ' ' ∧ Text.isBlank (t.live now) = true
    · obtain ⟨rfl, hblank⟩ := hspace
      rw [input_of_isBlank hblank, refresh]
      split
      · exact Or.inr (Or.inl rfl)
      · exact Or.inl rfl
    · rw [input_of_text hc hspace]
      split
      · exact Or.inr (Or.inr ⟨_, String.push_ne_empty, rfl⟩)
      · split
        · exact Or.inr (Or.inr ⟨_, String.singleton_ne_empty, rfl⟩)
        · exact Or.inr (Or.inl rfl)

/-! ## Every state -/

/-- What typing comes to from the start: characters at any times, over any lists and from any focus,
and forgetting in between. -/
inductive Reached : Typeahead → Prop where
  | start (timeout : Nat) : Reached (withTimeout timeout)
  | input {t : Typeahead} (h : Reached t) {K : Type u} (n : Navigable K) (focused : Option K)
      (c : Char) (now : Nat) : Reached (t.input n focused c now).2
  | reset {t : Typeahead} (h : Reached t) : Reached t.reset

/-- There is a time exactly if there is a buffer. -/
def Stamped (t : Typeahead) : Prop := t.buffer ≠ "" ↔ t.lastInput.isSome = true

theorem stamped_of_empty (hbuffer : t.buffer = "") (htime : t.lastInput = none) : t.Stamped := by
  simp [Stamped, hbuffer, htime]

theorem Stamped.input (h : t.Stamped) : (t.input n focused c now).2.Stamped := by
  rcases t.input_cases n focused c now with hsame | hforgot | ⟨text, htext, htyped⟩
  · rw [hsame]
    exact h
  · rw [hforgot]
    exact stamped_of_empty rfl rfl
  · rw [htyped]
    exact iff_of_true htext rfl

theorem Reached.stamped (h : Reached.{u} t) : t.Stamped := by
  induction h with
  | start timeout => exact stamped_of_empty rfl rfl
  | input _ n focused c now ih => exact ih.input
  | reset _ _ => exact stamped_of_empty rfl rfl

end

/-! ## Over a collection -/

section

variable {K : Type u} {T : Type v} [DecidableEq K] [Hashable K]
variable {t : Typeahead} {v : Navigator K T} {focused : Option K} {c : Char} {now : Nat} {k : K}
variable {text : String} {continues : Bool}

/-- What a text finds: the focused key, if it goes on from what was typed `before` and finds that one
still, and otherwise what a search finds. -/
theorem find?_navigable (v : Navigator K T) (focused : Option K) (before text : String) :
    find? v.navigable focused (!before.isEmpty) text =
      if before ≠ "" ∧ focused.any (v.finds text) = true then focused
      else v.search? text focused := by
  change (focused.filter fun k => !before.isEmpty && v.finds text k).or (v.search? text focused) = _
  cases hbefore : before.isEmpty with
  | true =>
    rw [if_neg fun h => h.1 (String.isEmpty_iff.1 hbefore)]
    simp
  | false =>
    have hne : before ≠ "" := String.isEmpty_eq_false_iff.1 hbefore
    cases focused with
    | none => simp
    | some k => cases hk : v.finds text k <;> simp [Option.filter_some, hk, hne]

/-- A text finds nothing only if there is nothing to find. -/
theorem find?_navigable_eq_none_iff (v : Navigator K T) (focused : Option K) (continues : Bool)
    (htext : text ≠ "") :
    find? v.navigable focused continues text = none ↔ ¬ v.Matches text := by
  change (focused.filter fun k => continues && v.finds text k).or (v.search? text focused) = none ↔ _
  rw [Option.or_eq_none_iff, Navigator.search?_eq_none_iff, or_iff_right htext,
    and_iff_right_iff_imp, Option.filter_eq_none_iff]
  intro hnothing k hk hfound
  obtain ⟨-, n, hn, -, hhit⟩ := Navigator.finds_iff.1 (Bool.and_eq_true_iff.1 hfound).2
  exact hnothing ⟨n, hn, hhit⟩

theorem finds_of_find?_navigable (h : find? v.navigable focused continues text = some k) :
    v.finds text k = true := by
  rcases Option.or_eq_some_iff.1 h with hsame | ⟨-, hfound⟩
  · exact (Bool.and_eq_true_iff.1 (Option.filter_eq_some_iff.1 hsame).2).2
  · exact Navigator.finds_of_search? hfound

/-! ## What a character comes to -/

section

variable (focused : Option K) (hc : Text.isControl c = false)
  (hspace : ¬ (c = ' ' ∧ Text.isBlank (t.live now) = true))

include hc hspace

/-- It goes on from the buffer. -/
theorem input_of_matches (h : v.Matches ((t.live now).push c)) :
    ∃ k, t.input v.navigable focused c now = (.focus k, t.searched ((t.live now).push c) now) ∧
      find? v.navigable focused (!(t.live now).isEmpty) ((t.live now).push c) = some k := by
  have hfound : find? v.navigable focused (!(t.live now).isEmpty) ((t.live now).push c) ≠ none :=
    fun hnone => (find?_navigable_eq_none_iff v focused _ String.push_ne_empty).1 hnone h
  obtain ⟨k, hk⟩ := Option.ne_none_iff_exists'.1 hfound
  refine ⟨k, ?_, hk⟩
  rw [input_of_text hc hspace, hk]

/-- It starts anew. -/
theorem input_of_matches_singleton (h : ¬ v.Matches ((t.live now).push c))
    (hlive : t.live now ≠ "") (halone : v.Matches (.singleton c)) :
    ∃ k, t.input v.navigable focused c now = (.focus k, t.searched (.singleton c) now) ∧
      v.search? (.singleton c) focused = some k := by
  have hfound : v.search? (.singleton c) focused ≠ none := fun hnone =>
    (Navigator.search?_eq_none_iff.1 hnone).elim String.singleton_ne_empty fun hno => hno halone
  obtain ⟨k, hk⟩ := Option.ne_none_iff_exists'.1 hfound
  have hsearch : v.navigable.search? (.singleton c) focused = some k := hk
  refine ⟨k, ?_, hk⟩
  rw [input_of_text hc hspace, (find?_navigable_eq_none_iff v focused _ String.push_ne_empty).2 h]
  simp only [String.isEmpty_eq_false_iff.2 hlive, Bool.not_false, if_true, hsearch]

/-- It finds nothing. -/
theorem input_of_not_matches (h : ¬ v.Matches ((t.live now).push c))
    (halone : ¬ (t.live now ≠ "" ∧ v.Matches (.singleton c))) :
    t.input v.navigable focused c now = (.noMatch, t.reset) := by
  have hnone : (if !(t.live now).isEmpty then v.navigable.search? (.singleton c) focused else none) =
      none := by
    rw [ite_eq_right_iff, Bool.not_eq_true', String.isEmpty_eq_false_iff]
    exact fun hlive => Navigator.search?_eq_none_iff.2 (Or.inr fun hno => halone ⟨hlive, hno⟩)
  rw [input_of_text hc hspace, (find?_navigable_eq_none_iff v focused _ String.push_ne_empty).2 h]
  simp only [hnone]

end

/-- The focus goes only to what the new buffer finds. -/
theorem finds_of_input (h : (t.input v.navigable focused c now).1 = .focus k) :
    v.finds (t.input v.navigable focused c now).2.buffer k = true := by
  cases hc : Text.isControl c with
  | true =>
    rw [input_of_isControl hc] at h
    cases h
  | false =>
    by_cases hspace : c = ' ' ∧ Text.isBlank (t.live now) = true
    · obtain ⟨rfl, hblank⟩ := hspace
      rw [input_of_isBlank hblank] at h
      cases h
    · by_cases hmatch : v.Matches ((t.live now).push c)
      · obtain ⟨k', hinput, hfound⟩ := input_of_matches focused hc hspace hmatch
        rw [hinput] at h ⊢
        cases h
        exact finds_of_find?_navigable hfound
      · by_cases halone : t.live now ≠ "" ∧ v.Matches (.singleton c)
        · obtain ⟨k', hinput, hfound⟩ :=
            input_of_matches_singleton focused hc hspace hmatch halone.1 halone.2
          rw [hinput] at h ⊢
          cases h
          exact Navigator.finds_of_search? hfound
        · rw [input_of_not_matches focused hc hspace hmatch halone] at h
          cases h

/-- **Typing.** A control character changes nothing, and a space after nothing but blanks is left to
others. Any other character goes on from what counts of the buffer, if some focusable row starts with
both: then the focus stays, if there is something in the buffer and the focused row starts with both
too, and otherwise it goes where a search from it leads. Else the character starts anew, if there is
something in the buffer and some focusable row starts with the character. Else nothing is left in the
buffer. The focus goes only to a focusable row that the new buffer finds, and in every state that
typing comes to there is a time exactly if there is a buffer. -/
theorem input_searches (t : Typeahead) (v : Navigator K T) (focused : Option K) (c : Char)
    (now : Nat) :
    let before := t.live now
    let text := before.push c
    let outcome := (t.input v.navigable focused c now).1
    let after := (t.input v.navigable focused c now).2
    (Text.isControl c = true → outcome = .ignored ∧ after = t) ∧
    (c = ' ' → Text.isBlank before = true → outcome = .ignored ∧ after.buffer = before) ∧
    (Text.isControl c = false → ¬ (c = ' ' ∧ Text.isBlank before = true) →
      (v.Matches text → ∃ k, outcome = .focus k ∧ after = t.searched text now ∧
        some k = if before ≠ "" ∧ focused.any (v.finds text) = true then focused
          else v.search? text focused) ∧
      (¬ v.Matches text → before ≠ "" ∧ v.Matches (.singleton c) →
        ∃ k, outcome = .focus k ∧ after = t.searched (.singleton c) now ∧
          some k = v.search? (.singleton c) focused) ∧
      (¬ v.Matches text → ¬ (before ≠ "" ∧ v.Matches (.singleton c)) →
        outcome = .noMatch ∧ after.buffer = "")) ∧
    (∀ k, outcome = .focus k → v.Offers k ∧ v.finds after.buffer k = true) ∧
    (Reached.{u} t → (t.buffer ≠ "" ↔ t.lastInput.isSome = true)) := by
  intro before text outcome after
  refine ⟨fun hc => ?_, fun hspace hblank => ?_, fun hc hspace => ⟨fun hmatch => ?_,
    fun hmatch halone => ?_, fun hmatch halone => ?_⟩, fun k hk => ?_, Reached.stamped⟩
  · have hinput : (outcome, after) = _ := input_of_isControl hc
    exact Prod.mk.inj hinput
  · subst hspace
    have hinput : (outcome, after) = _ := input_of_isBlank hblank
    obtain ⟨houtcome, hafter⟩ := Prod.mk.inj hinput
    exact ⟨houtcome, hafter ▸ t.buffer_refresh now⟩
  · obtain ⟨k, hinput, hfound⟩ := input_of_matches focused hc hspace hmatch
    obtain ⟨houtcome, hafter⟩ := Prod.mk.inj (hinput : (outcome, after) = _)
    exact ⟨k, houtcome, hafter, hfound.symm.trans (find?_navigable v focused before text)⟩
  · obtain ⟨k, hinput, hfound⟩ :=
      input_of_matches_singleton focused hc hspace hmatch halone.1 halone.2
    obtain ⟨houtcome, hafter⟩ := Prod.mk.inj (hinput : (outcome, after) = _)
    exact ⟨k, houtcome, hafter, hfound.symm⟩
  · have hinput : (outcome, after) = _ := input_of_not_matches focused hc hspace hmatch halone
    obtain ⟨houtcome, hafter⟩ := Prod.mk.inj hinput
    exact ⟨houtcome, hafter ▸ rfl⟩
  · have hfinds := finds_of_input hk
    exact ⟨Navigator.offers_of_finds hfinds, hfinds⟩

end

/-- A second letter fits nothing together with the first one, and by itself leads on from the row that
the first one has led to. -/
theorem input_searches_orchard :
    ∃ c, Collection.ofForest Navigator.orchard = .ok c ∧
      let v := Navigator.amongFruit c
      let t := (new.input v.navigable none 'p' 0).2
      let r := t.input v.navigable (some 1) 'p' 10
      Reached.{0} t ∧ t.live 10 = "p" ∧ ¬ v.Matches "pp" ∧ v.Matches "p" ∧
        r.1 = .focus 3 ∧ r.2.buffer = "p" ∧ v.finds "p" 3 = true ∧ r.2.lastInput = some 10 := by
  obtain ⟨c, hc⟩ :=
    Collection.exists_ofForest_ok_iff.2 (show Navigator.orchard.keys.Nodup by decide)
  let v := Navigator.amongFruit c
  let t := (new.input v.navigable none 'p' 0).2
  have hnodes : v.collection.toList = Navigator.orchard.nodes := Collection.toList_ofForest hc
  have hmatches : ∀ text, v.Matches text ↔ ∃ n ∈ Navigator.orchard.nodes,
      ((n.isItem && !n.disabled) && Collator.exact.isPrefixOf text n.text) = true := by
    intro text
    rw [Navigator.Matches, Navigator.isHit_amongFruit, hnodes]
  have hone : v.Matches "p" := (hmatches "p").2 (by decide)
  have htwo : ¬ v.Matches "pp" := fun h => absurd ((hmatches "pp").1 h) (by decide)
  have ht : t = new.searched "p" 0 := by
    obtain ⟨-, -, hrules, -⟩ := input_searches new v none 'p' 0
    obtain ⟨_, -, hafter, -⟩ := (hrules rfl (by decide)).1 hone
    exact hafter
  have hlive : t.live 10 = "p" := by rw [ht]; rfl
  have hnext : v.search? "p" (some 1) = some 3 := by
    rw [Navigator.search?_of_keys_eq ((Navigator.keys_amongFruit hc).trans (List.nil_append _).symm),
      funext Navigator.finds_eq_decide, Navigator.hits_amongFruit hc]
    decide
  obtain ⟨-, -, hrules, hfocus, -⟩ := input_searches t v (some 1) 'p' 10
  rw [hlive] at hrules
  obtain ⟨k, houtcome, hafter, hk⟩ := (hrules rfl (by decide)).2.1 htwo ⟨by decide, hone⟩
  obtain rfl : k = 3 := Option.some.inj (hk.trans hnext)
  have hbuffer : (t.input v.navigable (some 1) 'p' 10).2.buffer = "p" := congrArg buffer hafter
  have hfinds := (hfocus 3 houtcome).2
  rw [hbuffer] at hfinds
  have hreached : Reached t := .input (.start typeaheadTimeout) v.navigable none 'p' 0
  exact ⟨c, hc, hreached, hlive, htwo, hone, houtcome, hbuffer, hfinds, congrArg lastInput hafter⟩

end Listbox.Typeahead

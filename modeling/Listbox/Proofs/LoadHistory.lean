import Mathlib.Data.List.Induction
import Listbox.Load.Loader
import Listbox.Proofs.Splitting

set_option autoImplicit false

/-! # A loader follows its history

What a loader does with a result depends on all that happened before: which request began last, and
whether it has been called off or answered since. `Awaits` says this of a list of past events, in
terms of the events alone and of what became of earlier results. The loader itself keeps only the
ticket in flight and a list of raised signals, and the two agree after every run
(`inFlight_run_iff`).

`run_accounts` reads everything a loader shows off the history: which results take effect and what
they do, which collection is published, when the loader is loading, and whose signals are raised. -/

universe u v w

namespace Listbox

variable {K : Type u} {T : Type v} {ε : Type w} [DecidableEq K] [Hashable K]

/-- The result was taken in, whether it brought a collection or an error. -/
def LoadOutcome.TakesEffect : LoadOutcome K T ε → Prop
  | .aborted => False
  | .published _ | .failed _ => True

/-- The loader is waiting for a result of some kind. -/
def LoadState.Busy (s : LoadState) : Prop := s = .loading ∨ s = .loadingMore ∨ s = .filtering

/-- The event takes the place of whatever request is in flight. -/
def LoadEvent.Interrupts : LoadEvent K T ε → Prop
  | .start _ | .abort => True
  | .complete .. => False

/-- Whether the event is a new request. -/
def LoadEvent.begins : LoadEvent K T ε → Bool
  | .start _ => true
  | .abort | .complete .. => false

namespace Loader

variable {l : Loader K T} {c d : Collection K T} {t : Ticket} {past : List (LoadEvent K T ε)}

/-! ## One event -/

/-- What every event keeps: tickets in use were given out, the request in flight is not called off,
and the state says whether there is one. -/
structure Sound (l : Loader K T) : Prop where
  given : ∀ t, l.inFlight = some t → t.number < l.nextTicket
  givenAborted : ∀ t ∈ l.abortedTickets, t.number < l.nextTicket
  apart : ∀ t, l.inFlight = some t → l.isAborted t = false
  busy : l.isLoading ↔ l.state.Busy

theorem Sound.complete_ok (h : l.Sound) (ht : l.inFlight = some t) (d : Collection K T) :
    l.complete t (.ok d : Except ε (Collection K T)) =
      (.published ⟨l.current.number + 1, d⟩,
        { l with current := ⟨l.current.number + 1, d⟩, inFlight := none, state := .idle }) :=
  if_pos ⟨ht, h.apart t ht⟩

theorem Sound.complete_error (h : l.Sound) (ht : l.inFlight = some t) (e : ε) :
    l.complete t (.error e) = (.failed e, { l with inFlight := none, state := .failed }) :=
  if_pos ⟨ht, h.apart t ht⟩

theorem complete_of_ne (ht : l.inFlight ≠ some t) (result : Except ε (Collection K T)) :
    l.complete t result = (.aborted, l) :=
  if_neg fun h => ht h.1

theorem Sound.takesEffect_iff (h : l.Sound) (result : Except ε (Collection K T)) :
    (l.complete t result).1.TakesEffect ↔ l.inFlight = some t := by
  by_cases ht : l.inFlight = some t
  · refine iff_of_true ?_ ht
    cases result with
    | ok d =>
      rw [h.complete_ok ht]
      trivial
    | error e =>
      rw [h.complete_error ht]
      trivial
  · refine iff_of_false ?_ ht
    rw [complete_of_ne ht]
    exact id

theorem inFlight_abort (l : Loader K T) : l.abort.inFlight = none := by
  unfold abort
  split
  · rfl
  · next h => simpa [isLoading] using h

theorem abortedTickets_abort (l : Loader K T) :
    l.abort.abortedTickets = l.abortedTickets ++ l.inFlight.toList := by
  unfold abort
  split
  · rfl
  · next h =>
    have hnone : l.inFlight = none := by simpa [isLoading] using h
    simp [hnone]

theorem current_abort (l : Loader K T) : l.abort.current = l.current := by
  unfold abort
  split <;> rfl

theorem nextTicket_abort (l : Loader K T) : l.abort.nextTicket = l.nextTicket := by
  unfold abort
  split <;> rfl

theorem abortedTickets_complete (l : Loader K T) (t : Ticket)
    (result : Except ε (Collection K T)) :
    (l.complete t result).2.abortedTickets = l.abortedTickets := by
  unfold complete
  split
  · cases result <;> rfl
  · rfl

theorem nextTicket_complete (l : Loader K T) (t : Ticket) (result : Except ε (Collection K T)) :
    (l.complete t result).2.nextTicket = l.nextTicket := by
  unfold complete
  split
  · cases result <;> rfl
  · rfl

/-- An event that interrupts raises the signal of the request in flight, and no other event raises
one. -/
theorem isAborted_handle (l : Loader K T) (e : LoadEvent K T ε) (t : Ticket) :
    (l.handle e).isAborted t = true ↔
      l.isAborted t = true ∨ (e.Interrupts ∧ l.inFlight = some t) := by
  have hraised : ∀ l' : Loader K T, l'.abortedTickets = l.abortedTickets ++ l.inFlight.toList →
      (l'.isAborted t = true ↔ l.isAborted t = true ∨ l.inFlight = some t) := by
    intro l' hl'
    simp [isAborted, hl']
  cases e with
  | start kind =>
    rw [hraised _ rfl]
    simp [LoadEvent.Interrupts]
  | abort =>
    change l.abort.isAborted t = true ↔ _
    rw [hraised _ (abortedTickets_abort l)]
    simp [LoadEvent.Interrupts]
  | complete t' result =>
    simp [LoadEvent.Interrupts, handle, isAborted, abortedTickets_complete]

theorem busy_state (kind : LoadKind) : kind.state.Busy := by
  cases kind with
  | initial => exact Or.inl rfl
  | more => exact Or.inr (Or.inl rfl)
  | filter => exact Or.inr (Or.inr rfl)

theorem not_busy_idle : ¬ LoadState.idle.Busy := by
  rintro (h | h | h) <;> cases h

theorem not_busy_failed : ¬ LoadState.failed.Busy := by
  rintro (h | h | h) <;> cases h

theorem sound_ofCollection (c : Collection K T) : (ofCollection c).Sound where
  given := nofun
  givenAborted := nofun
  apart := nofun
  busy := iff_of_false Bool.false_ne_true not_busy_idle

theorem Sound.given_withdraw (h : l.Sound) :
    ∀ t ∈ l.withdraw.abortedTickets, t.number < l.nextTicket := by
  intro t ht
  rcases List.mem_append.1 ht with ht | ht
  · exact h.givenAborted t ht
  · exact h.given t (Option.mem_toList.1 ht)

theorem Sound.start (h : l.Sound) (kind : LoadKind) : (l.start kind).2.Sound := by
  constructor
  case given =>
    rintro t ⟨⟩
    exact Nat.lt_succ_self l.nextTicket
  case givenAborted => exact fun t ht => Nat.lt_succ_of_lt (h.given_withdraw t ht)
  case apart =>
    rintro t ⟨⟩
    -- the new number is larger than that of every raised signal
    refine decide_eq_false fun ht => ?_
    exact Nat.lt_irrefl _ (h.given_withdraw _ ht)
  case busy => exact iff_of_true rfl (busy_state kind)

theorem Sound.abort (h : l.Sound) : l.abort.Sound := by
  by_cases hl : l.isLoading
  · have hwithdraw : l.abort = { l.withdraw with state := .idle } := if_pos hl
    rw [hwithdraw]
    exact ⟨nofun, h.given_withdraw, nofun, iff_of_false Bool.false_ne_true not_busy_idle⟩
  · have hsame : l.abort = l := if_neg hl
    rw [hsame]
    exact h

theorem Sound.complete (h : l.Sound) (t : Ticket) (result : Except ε (Collection K T)) :
    (l.complete t result).2.Sound := by
  by_cases ht : l.inFlight = some t
  · cases result with
    | ok d =>
      rw [h.complete_ok ht]
      exact ⟨nofun, h.givenAborted, nofun, iff_of_false Bool.false_ne_true not_busy_idle⟩
    | error e =>
      rw [h.complete_error ht]
      exact ⟨nofun, h.givenAborted, nofun, iff_of_false Bool.false_ne_true not_busy_failed⟩
  · rw [complete_of_ne ht]
    exact h

theorem Sound.handle (h : l.Sound) (e : LoadEvent K T ε) : (l.handle e).Sound := by
  cases e with
  | start kind => exact h.start kind
  | abort => exact h.abort
  | complete t result => exact h.complete t result

theorem Sound.run (h : l.Sound) (events : List (LoadEvent K T ε)) : (l.run events).Sound := by
  induction events generalizing l with
  | nil => exact h
  | cons e events ih => exact ih (h.handle e)

theorem run_concat (l : Loader K T) (past : List (LoadEvent K T ε)) (e : LoadEvent K T ε) :
    l.run (past ++ [e]) = (l.run past).handle e := by
  unfold Loader.run
  rw [List.foldl_append]
  rfl

/-! ## The request that awaits its result -/

/-- The request that began between `before` and `since` has ticket `t`; it is the last that began,
and since then nothing was called off and no result of it took effect. -/
structure Pending (c : Collection K T) (before : List (LoadEvent K T ε)) (kind : LoadKind)
    (since : List (LoadEvent K T ε)) (t : Ticket) : Prop where
  ticket : (((ofCollection c).run before).start kind).1 = t
  latest : ∀ kind', .start kind' ∉ since
  kept : .abort ∉ since
  unanswered : ∀ earlier result later, since = earlier ++ .complete t result :: later →
    ¬ (((ofCollection c).run (before ++ .start kind :: earlier)).complete t result).1.TakesEffect

/-- After the events of `past`, the request with ticket `t` awaits its result. -/
def Awaits (c : Collection K T) (past : List (LoadEvent K T ε)) (t : Ticket) : Prop :=
  ∃ before kind since, past = before ++ .start kind :: since ∧ Pending c before kind since t

theorem not_awaits_nil : ¬ Awaits c ([] : List (LoadEvent K T ε)) t := by
  rintro ⟨before, kind, since, hpast, -⟩
  simp at hpast

theorem awaits_start_iff (kind : LoadKind) :
    Awaits c (past ++ [.start kind]) t ↔ t = ⟨((ofCollection c).run past).nextTicket⟩ := by
  constructor
  · rintro ⟨before, kind', since, hpast, h⟩
    rcases concat_eq_append_cons_iff.1 hpast with ⟨rfl, rfl, ⟨⟩⟩ | ⟨since', rfl, rfl⟩
    · exact h.ticket.symm
    · exact absurd (List.mem_append_right _ List.mem_cons_self) (h.latest kind)
  · rintro rfl
    exact ⟨past, kind, [], rfl, rfl, nofun, nofun, fun _ _ _ h => by simp at h⟩

theorem not_awaits_abort : ¬ Awaits c (past ++ [.abort]) t := by
  rintro ⟨before, kind, since, hpast, h⟩
  rcases concat_eq_append_cons_iff.1 hpast with ⟨-, -, ⟨⟩⟩ | ⟨since', rfl, rfl⟩
  exact h.kept (List.mem_append_right _ List.mem_cons_self)

theorem awaits_complete_iff (t' : Ticket) (result : Except ε (Collection K T)) :
    Awaits c (past ++ [.complete t' result]) t ↔
      Awaits c past t ∧
        (t' = t → ¬ (((ofCollection c).run past).complete t' result).1.TakesEffect) := by
  constructor
  · rintro ⟨before, kind, since, hpast, h⟩
    rcases concat_eq_append_cons_iff.1 hpast with ⟨-, -, ⟨⟩⟩ | ⟨since', rfl, rfl⟩
    refine ⟨⟨before, kind, since', rfl, h.ticket, ?_, ?_, ?_⟩, ?_⟩
    · exact fun kind' hk => h.latest kind' (List.mem_append_left _ hk)
    · exact fun hk => h.kept (List.mem_append_left _ hk)
    · rintro earlier result' later rfl
      exact h.unanswered earlier result' (later ++ [.complete t' result]) (by simp)
    · rintro rfl
      exact h.unanswered since' result [] rfl
  · rintro ⟨⟨before, kind, since, rfl, h⟩, hresult⟩
    refine ⟨before, kind, since ++ [.complete t' result], by simp, h.ticket, ?_, ?_, ?_⟩
    · intro kind' hk
      rcases List.mem_append.1 hk with hk | hk
      · exact h.latest kind' hk
      · simp at hk
    · intro hk
      rcases List.mem_append.1 hk with hk | hk
      · exact h.kept hk
      · simp at hk
    · intro earlier result' later hsplit
      rcases concat_eq_append_cons_iff.1 hsplit with ⟨-, rfl, ⟨⟩⟩ | ⟨later', rfl, rfl⟩
      · exact hresult rfl
      · exact h.unanswered earlier result' later' rfl

/-- **The request in flight** is the one that awaits its result. -/
theorem inFlight_run_iff (c : Collection K T) (past : List (LoadEvent K T ε)) (t : Ticket) :
    ((ofCollection c).run past).inFlight = some t ↔ Awaits c past t := by
  induction past using List.reverseRecOn with
  | nil => exact iff_of_false nofun not_awaits_nil
  | append_singleton past e ih =>
    have hsound := (sound_ofCollection c).run past
    rw [run_concat]
    cases e with
    | start kind =>
      rw [awaits_start_iff, eq_comm]
      exact Option.some_inj
    | abort =>
      refine iff_of_false ?_ not_awaits_abort
      change ((ofCollection c).run past).abort.inFlight ≠ some t
      rw [inFlight_abort]
      exact nofun
    | complete t' result =>
      rw [awaits_complete_iff, hsound.takesEffect_iff, ← ih]
      change (((ofCollection c).run past).complete t' result).2.inFlight = some t ↔ _
      by_cases ht' : ((ofCollection c).run past).inFlight = some t'
      · refine iff_of_false ?_ ?_
        · cases result with
          | ok d =>
            rw [hsound.complete_ok ht']
            exact nofun
          | error e =>
            rw [hsound.complete_error ht']
            exact nofun
        · rintro ⟨ht, hother⟩
          rw [ht] at ht'
          cases ht'
          exact hother rfl ht
      · rw [complete_of_ne ht']
        exact ⟨fun ht => ⟨ht, fun _ => ht'⟩, fun h => h.1⟩

/-! ## The collection that was brought last -/

/-- The event brings `d`: it is the result of the request that awaits one. -/
def Brings (c : Collection K T) (past : List (LoadEvent K T ε)) (e : LoadEvent K T ε)
    (d : Collection K T) : Prop :=
  ∃ t, e = .complete t (.ok d) ∧ Awaits c past t

/-- None of the events `since` brings a collection when they follow those of `before`. -/
def BringsNone (c : Collection K T) (before since : List (LoadEvent K T ε)) : Prop :=
  ∀ earlier e later d, since = earlier ++ e :: later → ¬ Brings c (before ++ earlier) e d

/-- An event of `past` brings `d`, and none after it brings a collection. -/
def BringsLast (c : Collection K T) (past : List (LoadEvent K T ε)) (d : Collection K T) : Prop :=
  ∃ before e since, past = before ++ e :: since ∧ Brings c before e d ∧
    BringsNone c (before ++ [e]) since

theorem bringsNone_nil (before : List (LoadEvent K T ε)) : BringsNone c before [] := by
  intro earlier e later d h
  simp at h

theorem BringsNone.concat {before since : List (LoadEvent K T ε)} {e : LoadEvent K T ε}
    (h : BringsNone c before since) (he : ∀ d, ¬ Brings c (before ++ since) e d) :
    BringsNone c before (since ++ [e]) := by
  intro earlier e' later d hsplit
  rcases concat_eq_append_cons_iff.1 hsplit with ⟨-, rfl, rfl⟩ | ⟨later', -, rfl⟩
  · exact he d
  · exact h earlier e' later' d rfl

theorem collection_of_brings {e : LoadEvent K T ε} (h : Brings c past e d) :
    ((ofCollection c).run (past ++ [e])).collection = d := by
  obtain ⟨t, rfl, ht⟩ := h
  have hsound := (sound_ofCollection c).run past
  rw [run_concat]
  change (((ofCollection c).run past).complete t (.ok d)).2.collection = d
  rw [hsound.complete_ok ((inFlight_run_iff c past t).2 ht)]
  rfl

theorem current_of_not_brings {e : LoadEvent K T ε} (h : ∀ d, ¬ Brings c past e d) :
    ((ofCollection c).run (past ++ [e])).current = ((ofCollection c).run past).current := by
  have hsound := (sound_ofCollection c).run past
  rw [run_concat]
  cases e with
  | start kind => rfl
  | abort => exact current_abort _
  | complete t result =>
    change (((ofCollection c).run past).complete t result).2.current = _
    by_cases ht : ((ofCollection c).run past).inFlight = some t
    · cases result with
      | ok d => exact absurd ⟨t, rfl, (inFlight_run_iff c past t).1 ht⟩ (h d)
      | error e => rw [hsound.complete_error ht]
    · rw [complete_of_ne ht]

/-- What is published was brought last, unless nothing was brought at all. -/
theorem current_run (c : Collection K T) (past : List (LoadEvent K T ε)) :
    BringsLast c past ((ofCollection c).run past).collection ∨
      BringsNone c [] past ∧ ((ofCollection c).run past).current = (ofCollection c).current := by
  induction past using List.reverseRecOn with
  | nil => exact Or.inr ⟨bringsNone_nil [], rfl⟩
  | append_singleton past e ih =>
    by_cases he : ∃ d, Brings c past e d
    · obtain ⟨d, hd⟩ := he
      rw [collection_of_brings hd]
      exact Or.inl ⟨past, e, [], rfl, hd, bringsNone_nil _⟩
    · have hnone : ∀ d, ¬ Brings c past e d := fun d hd => he ⟨d, hd⟩
      have hsame := current_of_not_brings hnone
      unfold collection at ih ⊢
      rw [hsame]
      rcases ih with ⟨before, e', since, hpast, hbrings, hrest⟩ | ⟨hrest, hcurrent⟩
      · refine Or.inl ⟨before, e', since ++ [e], by rw [hpast]; simp, hbrings, hrest.concat ?_⟩
        rw [List.append_assoc, List.singleton_append, ← hpast]
        exact hnone
      · exact Or.inr ⟨hrest.concat hnone, hcurrent⟩

/-! ## The signals that are raised -/

/-- An event of `past` interrupts while the request with ticket `t` awaits its result. -/
def CalledOff (c : Collection K T) (past : List (LoadEvent K T ε)) (t : Ticket) : Prop :=
  ∃ before e since, past = before ++ e :: since ∧ e.Interrupts ∧ Awaits c before t

theorem calledOff_concat_iff (e : LoadEvent K T ε) :
    CalledOff c (past ++ [e]) t ↔ CalledOff c past t ∨ (e.Interrupts ∧ Awaits c past t) := by
  constructor
  · rintro ⟨before, e', since, hpast, he', hawaits⟩
    rcases concat_eq_append_cons_iff.1 hpast with ⟨-, rfl, rfl⟩ | ⟨since', -, rfl⟩
    · exact Or.inr ⟨he', hawaits⟩
    · exact Or.inl ⟨before, e', since', rfl, he', hawaits⟩
  · rintro (⟨before, e', since, rfl, he', hawaits⟩ | ⟨he, hawaits⟩)
    · exact ⟨before, e', since ++ [e], by simp, he', hawaits⟩
    · exact ⟨past, e, [], rfl, he, hawaits⟩

theorem isAborted_run_iff (c : Collection K T) (past : List (LoadEvent K T ε)) (t : Ticket) :
    ((ofCollection c).run past).isAborted t ↔ CalledOff c past t := by
  induction past using List.reverseRecOn with
  | nil =>
    refine iff_of_false Bool.false_ne_true ?_
    rintro ⟨before, e, since, hpast, -⟩
    simp at hpast
  | append_singleton past e ih =>
    rw [run_concat, isAborted_handle, calledOff_concat_iff, ih, inFlight_run_iff]

/-- Raised signals stay raised. -/
theorem isAborted_run (h : l.isAborted t = true) (events : List (LoadEvent K T ε)) :
    (l.run events).isAborted t = true := by
  induction events generalizing l with
  | nil => exact h
  | cons e events ih => exact ih ((isAborted_handle l e t).2 (Or.inl h))

/-! ## The whole account -/

theorem nextTicket_run (c : Collection K T) (past : List (LoadEvent K T ε)) :
    ((ofCollection c).run past).nextTicket = past.countP (·.begins) := by
  induction past using List.reverseRecOn with
  | nil => rfl
  | append_singleton past e ih =>
    rw [run_concat, List.countP_append, ← ih]
    cases e with
    | start kind => rfl
    | abort => exact nextTicket_abort _
    | complete t result => exact nextTicket_complete _ t result

/-- What a loader does and shows after the events of `past`, when it started with `c`. -/
structure Accounts (c : Collection K T) (past : List (LoadEvent K T ε)) (l : Loader K T) :
    Prop where
  /-- Tickets count the requests. -/
  ticket : ∀ kind, (l.start kind).1.number = past.countP (·.begins)
  /-- The request that awaits its result is the only one whose result counts. -/
  effect : ∀ t (result : Except ε (Collection K T)),
    (l.complete t result).1.TakesEffect ↔ Awaits c past t
  published : ∀ t d, Awaits c past t →
    (l.complete t (.ok d : Except ε (Collection K T))).1 =
        .published (l.complete t (.ok d : Except ε (Collection K T))).2.current ∧
      (l.complete t (.ok d : Except ε (Collection K T))).2.collection = d
  failed : ∀ t (e : ε), Awaits c past t →
    (l.complete t (.error e)).1 = .failed e ∧ (l.complete t (.error e)).2.current = l.current
  dropped : ∀ t (result : Except ε (Collection K T)), ¬ Awaits c past t →
    l.complete t result = (.aborted, l)
  current : BringsLast c past l.collection ∨
    BringsNone c [] past ∧ l.current = (ofCollection c).current
  loading : l.isLoading ↔ l.state.Busy
  signal : ∀ t, l.isAborted t ↔ CalledOff c past t
  raised : ∀ t, l.isAborted t → ∀ more : List (LoadEvent K T ε), (l.run more).isAborted t

/-- **A loader follows its history.** After every run of requests, cancellations and results, in
whatever order and however late, all a loader does and shows can be read off the run. -/
theorem run_accounts (c : Collection K T) (past : List (LoadEvent K T ε)) :
    Accounts c past ((ofCollection c).run past) := by
  have hsound := (sound_ofCollection c).run past
  have hflight := inFlight_run_iff c past
  constructor
  case ticket => exact fun _ => nextTicket_run c past
  case effect =>
    intro t result
    rw [hsound.takesEffect_iff, hflight]
  case published =>
    intro t d ht
    rw [hsound.complete_ok ((hflight t).2 ht)]
    exact ⟨rfl, rfl⟩
  case failed =>
    intro t e ht
    rw [hsound.complete_error ((hflight t).2 ht)]
    exact ⟨rfl, rfl⟩
  case dropped => exact fun t result ht => complete_of_ne (fun h => ht ((hflight t).1 h)) result
  case current => exact current_run c past
  case loading => exact hsound.busy
  case signal => exact isAborted_run_iff c past
  case raised => exact fun t ht more => isAborted_run ht more

end Loader

end Listbox

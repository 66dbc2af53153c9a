import Listbox.Proofs.Polling
import Listbox.Proofs.Splitting

set_option autoImplicit false

/-! # A press tracker follows its history

A press tracker keeps one press and one click. What it answers depends on more than that: on which
press began last and whether it has been given up since, on whether it has been told of as a long
one, and on all the clicks that came before the last one without a break. `Pending` and `preceding`
say this of a list of past events and of what they were answered, and `Recalls` says that the
tracker agrees with them; every event keeps it so. `press_answers_iff` then reads off the history
which answers a tracker gives. How far a press may stray is left open here. -/

universe u

namespace Listbox

/-! ## Histories -/

namespace PressRecord

variable {K : Type u}

/-- Whether a press begins. -/
def begins : PressRecord K → Bool
  | .start .. => true
  | .move .. | .cancel | .poll .. | .finish .. => false

/-- Whether the press that was going on is over. -/
def ends : PressRecord K → Bool
  | .start .. | .cancel | .finish .. => true
  | .move _ givenUp => givenUp
  | .poll .. => false

/-- The key and the time of a click. -/
def click? : PressRecord K → Option (K × Nat)
  | .finish _ _ now (some click) => some (click.key, now)
  | .finish _ _ _ none | .start .. | .move .. | .cancel | .poll .. => none

end PressRecord

namespace PressTracker

variable {K : Type u}

/-- The keys and the times of the clicks, the latest first. -/
def clicks (past : List (PressRecord K)) : List (K × Nat) :=
  (past.filterMap PressRecord.click?).reverse

/-- How many of the clicks, of which the latest comes first, lead up to one on `key` at `now`: all
of them are on the key, and each one is followed by the next within the gap. -/
def preceding [DecidableEq K] (gap : Nat) (key : K) (now : Nat) : List (K × Nat) → Nat
  | [] => 0
  | (k, time) :: earlier =>
    if k = key ∧ now - time ≤ gap then preceding gap key time earlier + 1 else 0

/-- The press is the last one that began, and is not over after the events `since`. It counts as a
long one if a poll has told of it. -/
structure Pending (past : List (PressRecord K)) (press : ActivePress K)
    (since : List (PressRecord K)) : Prop where
  latest : ∃ before,
    past = before ++ .start press.key press.pointer press.origin press.started :: since
  lasts : ∀ r ∈ since, r.ends = false
  longPressed : press.longPressed = true ↔ ∃ now, .poll now (some press.key) ∈ since

/-- Between two polls that tell of a long press another press begins. -/
def TellsOnce (past : List (PressRecord K)) : Prop :=
  ∀ before key now mid key' now' after,
    past = (before ++ .poll now (some key) :: mid) ++ .poll now' (some key') :: after →
      ∃ r ∈ mid, r.begins = true

variable {past since : List (PressRecord K)} {press : ActivePress K} {r : PressRecord K}
  {t : PressTracker K} {config : PressConfig}

theorem not_pending_nil : ¬ Pending [] press since := by
  rintro ⟨⟨before, hpast⟩, -, -⟩
  simp at hpast

theorem pending_start_iff {key : K} {pointer : PointerType} {origin : Point} {now : Nat} :
    Pending (past ++ [.start key pointer origin now]) press since ↔
      since = [] ∧ press = { key, pointer, origin, started := now, longPressed := false } := by
  constructor
  · rintro ⟨⟨before, hpast⟩, hlasts, hlong⟩
    rcases concat_eq_append_cons_iff.1 hpast with ⟨rfl, -, hstart⟩ | ⟨since', rfl, -⟩
    · obtain ⟨k, p, o, n, longPressed⟩ := press
      cases hstart
      have hfalse : longPressed = false := by
        rw [Bool.eq_false_iff]
        intro htrue
        obtain ⟨_, hpoll⟩ := hlong.1 htrue
        cases hpoll
      rw [hfalse]
      exact ⟨rfl, rfl⟩
    · cases hlasts _ (List.mem_append_right since' List.mem_cons_self)
  · rintro ⟨rfl, rfl⟩
    exact ⟨⟨past, rfl⟩, nofun, iff_of_false Bool.false_ne_true nofun⟩

theorem not_pending_of_ends (hends : r.ends = true) (hbegins : r.begins = false) :
    ¬ Pending (past ++ [r]) press since := by
  rintro ⟨⟨before, hpast⟩, hlasts, -⟩
  rcases concat_eq_append_cons_iff.1 hpast with ⟨-, -, rfl⟩ | ⟨since', rfl, -⟩
  · cases hbegins
  · have hlast := hlasts r (List.mem_append_right since' List.mem_cons_self)
    rw [hends] at hlast
    cases hlast

/-- A poll that tells of a press makes it count as a long one. -/
theorem pending_told_iff (press : ActivePress K) {now : Nat} :
    Pending (past ++ [.poll now (some press.key)]) press since ↔
      press.longPressed = true ∧ ∃ since' longPressed,
        since = since' ++ [.poll now (some press.key)] ∧
        Pending past { press with longPressed } since' := by
  classical
  constructor
  · rintro ⟨⟨before, hpast⟩, hlasts, hlong⟩
    rcases concat_eq_append_cons_iff.1 hpast with ⟨-, -, ⟨⟩⟩ | ⟨since', rfl, hpast'⟩
    refine ⟨hlong.2 ⟨now, by simp⟩, since',
      decide (∃ now, PressRecord.poll now (some press.key) ∈ since'), rfl, ⟨before, hpast'⟩, ?_, ?_⟩
    · exact fun r hr => hlasts r (List.mem_append_left _ hr)
    · exact decide_eq_true_iff
  · rintro ⟨htrue, since', longPressed, rfl, ⟨before, rfl⟩, hlasts, -⟩
    refine ⟨⟨before, by simp⟩, ?_, iff_of_true htrue ⟨now, by simp⟩⟩
    exact List.forall_mem_append.2 ⟨hlasts, List.forall_mem_singleton.2 rfl⟩

/-- Nothing else makes a difference to a press that is not over. -/
theorem pending_concat_iff (hends : r.ends = false)
    (hquiet : ∀ now, r ≠ .poll now (some press.key)) :
    Pending (past ++ [r]) press since ↔
      ∃ since', since = since' ++ [r] ∧ Pending past press since' := by
  have htold : ∀ since', (∃ now, .poll now (some press.key) ∈ since' ++ [r]) ↔
      ∃ now, .poll now (some press.key) ∈ since' := by
    intro since'
    refine exists_congr fun now => ?_
    rw [List.mem_append, List.mem_singleton, or_iff_left (hquiet now).symm]
  constructor
  · rintro ⟨⟨before, hpast⟩, hlasts, hlong⟩
    rcases concat_eq_append_cons_iff.1 hpast with ⟨-, -, rfl⟩ | ⟨since', rfl, hpast'⟩
    · cases hends
    · exact ⟨since', rfl, ⟨before, hpast'⟩, fun r hr => hlasts r (List.mem_append_left _ hr),
        hlong.trans (htold since')⟩
  · rintro ⟨since', rfl, ⟨before, rfl⟩, hlasts, hlong⟩
    refine ⟨⟨before, by simp⟩, ?_, hlong.trans (htold since').symm⟩
    exact List.forall_mem_append.2 ⟨hlasts, List.forall_mem_singleton.2 hends⟩

theorem TellsOnce.concat (h : TellsOnce past) (hr : ∀ now key, r ≠ .poll now (some key)) :
    TellsOnce (past ++ [r]) := by
  intro before key now mid key' now' after hpast
  rcases concat_eq_append_cons_iff.1 hpast with ⟨-, -, rfl⟩ | ⟨after', -, hpast'⟩
  · exact absurd rfl (hr now' key')
  · exact h before key now mid key' now' after' hpast'

/-- A poll may tell of a press that no poll has told of. -/
theorem TellsOnce.concat_told {now : Nat} {key : K} (h : TellsOnce past)
    (hpending : Pending past press since) (hquiet : ∀ now key, .poll now (some key) ∉ since) :
    TellsOnce (past ++ [.poll now (some key)]) := by
  intro before key₁ now₁ mid key₂ now₂ after hpast
  rcases concat_eq_append_cons_iff.1 hpast with ⟨-, hpast', -⟩ | ⟨after', -, hpast'⟩
  · obtain ⟨start, hstart⟩ := hpending.latest
    rw [hstart] at hpast'
    -- the press has begun after the earlier poll, or else that poll has told of the press
    rcases append_cons_eq_cases hpast' with ⟨-, ⟨⟩, -⟩ | ⟨-, hpoll⟩ | ⟨-, hbegun⟩
    · exact absurd hpoll (hquiet now₁ key₁)
    · exact ⟨_, hbegun, rfl⟩
  · exact h before key₁ now₁ mid key₂ now₂ after' hpast'

theorem clicks_concat (past : List (PressRecord K)) (r : PressRecord K) :
    clicks (past ++ [r]) = r.click?.toList ++ clicks past := by
  unfold clicks
  cases h : r.click? with
  | none => simp [List.filterMap_append, h]
  | some click => simp [List.filterMap_append, h]

/-! ## One event -/

theorem poll_eq_some_iff {now : Nat} {key : K} :
    (t.poll now).1 = some key ↔
      ∃ press, t.active = some press ∧ press.key = key ∧ press.pointer = .touch ∧
        t.config.longPress ≤ now - press.started ∧ press.longPressed = false := by
  unfold poll isLong
  cases t.active with
  | none => simp
  | some press =>
    simp only [Bool.and_eq_true, Bool.not_eq_true', beq_iff_eq, decide_eq_true_iff]
    constructor
    · intro h
      split at h
      · next hlong =>
        obtain ⟨htold, htouch, htime⟩ := hlong
        exact ⟨press, rfl, Option.some.inj h, htouch, htime, htold⟩
      · cases h
    · rintro ⟨_, ⟨⟩, rfl, htouch, htime, htold⟩
      rw [if_pos ⟨htold, htouch, htime⟩]

theorem move_cases (t : PressTracker K) (point : Point) :
    t.move point = (true, t.cancel) ∨ t.move point = (false, t) := by
  unfold move
  split
  · exact Or.inl rfl
  · exact Or.inr rfl

section Event

variable [DecidableEq K] {target : Option K} {point : Point} {now : Nat}

theorem finish_of_active (hactive : t.active = some press) (htarget : target = some press.key)
    (hstrays : strays t.config press.origin point = false) :
    t.finish target point now =
      (some { key := press.key, pointer := press.pointer, count := t.clickCount press.key now,
              afterLongPress := press.longPressed },
        { t with
          active := none
          lastClick :=
            some { key := press.key, time := now, count := t.clickCount press.key now } }) := by
  simp [finish, hactive, htarget, hstrays]

theorem finish_cases (t : PressTracker K) (target : Option K) (point : Point) (now : Nat) :
    t.finish target point now = (none, t.cancel) ∨
      ∃ press, t.active = some press ∧ target = some press.key ∧
        strays t.config press.origin point = false := by
  obtain ⟨config, active, lastClick⟩ := t
  cases active with
  | none => exact Or.inl rfl
  | some press =>
    unfold finish
    simp only
    split
    · next h => exact Or.inr ⟨press, rfl, h.1, by simpa using h.2⟩
    · exact Or.inl rfl

theorem finish_eq_some_iff {click : Click K} :
    (t.finish target point now).1 = some click ↔
      ∃ press, t.active = some press ∧ target = some press.key ∧
        strays t.config press.origin point = false ∧
        click = { key := press.key, pointer := press.pointer,
                  count := t.clickCount press.key now, afterLongPress := press.longPressed } := by
  constructor
  · intro h
    rcases t.finish_cases target point now with hnone | ⟨press, hactive, htarget, hstrays⟩
    · rw [hnone] at h
      cases h
    · rw [finish_of_active hactive htarget hstrays] at h
      exact ⟨press, hactive, htarget, hstrays, (Option.some.inj h).symm⟩
  · rintro ⟨press, hactive, htarget, hstrays, rfl⟩
    rw [finish_of_active hactive htarget hstrays]

/-! ## What is kept of the history -/

/-- What is kept of the clicks. -/
def latestClick (gap : Nat) : List (K × Nat) → Option (LastClick K)
  | [] => none
  | (key, time) :: earlier => some { key, time, count := preceding gap key time earlier + 1 }

/-- The press tracker recalls what matters of the history. -/
structure Recalls (config : PressConfig) (past : List (PressRecord K)) (t : PressTracker K) :
    Prop where
  sameConfig : t.config = config
  active_iff : ∀ press, t.active = some press ↔ ∃ since, Pending past press since
  own : ∀ press since, Pending past press since →
    ∀ now key, .poll now (some key) ∈ since → key = press.key
  lastClick : t.lastClick = latestClick config.doubleClick (clicks past)
  once : TellsOnce past

theorem Recalls.clickCount (h : Recalls config past t) (key : K) (now : Nat) :
    t.clickCount key now = preceding config.doubleClick key now (clicks past) + 1 := by
  unfold PressTracker.clickCount
  rw [h.lastClick, h.sameConfig]
  cases clicks past with
  | nil => rfl
  | cons click earlier =>
    obtain ⟨k, time⟩ := click
    simp only [latestClick, preceding]
    split
    · next hsame => rw [hsame.1]
    · rfl

theorem recalls_new (config : PressConfig) : Recalls (K := K) config [] (new config) where
  sameConfig := rfl
  active_iff press := iff_of_false nofun fun ⟨_, h⟩ => not_pending_nil h
  own press since h := absurd h not_pending_nil
  lastClick := rfl
  once before key now mid key' now' after hpast := by simp at hpast

theorem Recalls.start (h : Recalls config past t) (key : K) (pointer : PointerType)
    (origin : Point) (now : Nat) :
    Recalls config (past ++ [.start key pointer origin now]) (t.start key pointer origin now) where
  sameConfig := h.sameConfig
  active_iff press := by
    simp only [pending_start_iff, exists_eq_left]
    exact Option.some_inj.trans eq_comm
  own press since hpending := by
    obtain ⟨rfl, -⟩ := pending_start_iff.1 hpending
    exact nofun
  lastClick := by
    rw [clicks_concat]
    exact h.lastClick
  once := h.once.concat nofun

/-- The press is over without a click. -/
theorem Recalls.cancel (h : Recalls config past t) (hends : r.ends = true)
    (hbegins : r.begins = false) (hclick : r.click? = none) :
    Recalls config (past ++ [r]) t.cancel where
  sameConfig := h.sameConfig
  active_iff press := iff_of_false nofun fun ⟨_, hp⟩ => not_pending_of_ends hends hbegins hp
  own press since hp := absurd hp (not_pending_of_ends hends hbegins)
  lastClick := by
    rw [clicks_concat, hclick]
    exact h.lastClick
  once := by
    refine h.once.concat ?_
    rintro now key rfl
    cases hends

/-- Nothing has happened to the press. -/
theorem Recalls.still (h : Recalls config past t) (hends : r.ends = false)
    (hquiet : ∀ now key, r ≠ .poll now (some key)) (hclick : r.click? = none) :
    Recalls config (past ++ [r]) t where
  sameConfig := h.sameConfig
  active_iff press := by
    rw [h.active_iff press]
    simp only [pending_concat_iff hends (hquiet · press.key)]
    constructor
    · rintro ⟨since, hp⟩
      exact ⟨since ++ [r], since, rfl, hp⟩
    · rintro ⟨-, since, -, hp⟩
      exact ⟨since, hp⟩
  own press since hp now key hpoll := by
    obtain ⟨since', rfl, hp'⟩ := (pending_concat_iff hends (hquiet · press.key)).1 hp
    rcases List.mem_append.1 hpoll with hpoll | hpoll
    · exact h.own press since' hp' now key hpoll
    · exact absurd (List.mem_singleton.1 hpoll).symm (hquiet now key)
  lastClick := by
    rw [clicks_concat, hclick]
    exact h.lastClick
  once := h.once.concat hquiet

/-- A press that is told of is the one that was going on, and counts as a long one now. -/
theorem Recalls.of_pending_told {press' : ActivePress K} (h : Recalls config past t)
    (hactive : t.active = some press)
    (hp : Pending (past ++ [.poll now (some press.key)]) press' since) :
    press' = { press with longPressed := true } ∧
      ∃ since', since = since' ++ [.poll now (some press.key)] ∧ Pending past press since' := by
  have hsame : ∀ press' since', Pending past press' since' → press' = press := by
    intro press' since' hp'
    have hactive' := (h.active_iff press').2 ⟨since', hp'⟩
    rw [hactive] at hactive'
    exact (Option.some.inj hactive').symm
  -- a press on another key would have been going on as well
  by_cases hkey : press'.key = press.key
  · rw [← hkey] at hp
    obtain ⟨htrue, since', longPressed, rfl, hp'⟩ := (pending_told_iff press').1 hp
    have hpress := hsame _ since' hp'
    rw [hpress] at hp'
    refine ⟨?_, since', by rw [hkey], hp'⟩
    rw [← hpress, ← htrue]
  · have hquiet : ∀ now', PressRecord.poll now (some press.key) ≠ .poll now' (some press'.key) := by
      intro now' hpoll
      injection hpoll with _ hsome
      exact hkey (Option.some.inj hsome).symm
    obtain ⟨since', -, hp'⟩ := (pending_concat_iff rfl hquiet).1 hp
    exact absurd (congrArg (·.key) (hsame press' since' hp')) hkey

/-- The press is told of as a long one. -/
theorem Recalls.told (h : Recalls config past t) (hactive : t.active = some press)
    (hlong : press.longPressed = false) :
    Recalls config (past ++ [.poll now (some press.key)])
      { t with active := some { press with longPressed := true } } where
  sameConfig := h.sameConfig
  active_iff press' := by
    constructor
    · rintro ⟨⟩
      obtain ⟨since, hp⟩ := (h.active_iff press).1 hactive
      obtain ⟨key, pointer, origin, started, longPressed⟩ := press
      cases hlong
      exact ⟨_, (pending_told_iff ⟨key, pointer, origin, started, true⟩).2
        ⟨rfl, since, false, rfl, hp⟩⟩
    · rintro ⟨since, hp⟩
      rw [(h.of_pending_told hactive hp).1]
  own press' since hp now' key hpoll := by
    obtain ⟨rfl, since', rfl, hp'⟩ := h.of_pending_told hactive hp
    rcases List.mem_append.1 hpoll with hpoll | hpoll
    · exact h.own press since' hp' now' key hpoll
    · cases List.mem_singleton.1 hpoll
      rfl
  lastClick := by
    rw [clicks_concat]
    exact h.lastClick
  once := by
    obtain ⟨since, hp⟩ := (h.active_iff press).1 hactive
    refine h.once.concat_told hp fun now key hpoll => ?_
    have hkey := h.own press since hp now key hpoll
    subst hkey
    rw [hp.longPressed.2 ⟨now, hpoll⟩] at hlong
    cases hlong

/-- The press ends in a click. -/
theorem Recalls.clicked (h : Recalls config past t) (press : ActivePress K)
    (afterLongPress : Bool) :
    Recalls config
      (past ++ [.finish target point now (some
        { key := press.key, pointer := press.pointer, count := t.clickCount press.key now,
          afterLongPress })])
      { t with
        active := none
        lastClick :=
          some { key := press.key, time := now, count := t.clickCount press.key now } } where
  sameConfig := h.sameConfig
  active_iff press := iff_of_false nofun fun ⟨_, hp⟩ => not_pending_of_ends rfl rfl hp
  own press since hp := absurd hp (not_pending_of_ends rfl rfl)
  lastClick := by
    rw [clicks_concat, h.clickCount]
    rfl
  once := h.once.concat nofun

/-- **Step.** After any event the press tracker still recalls what matters. -/
theorem Recalls.handle (h : Recalls config past t) (e : PressEvent K) :
    Recalls config (past ++ [(t.handle e).1]) (t.handle e).2 := by
  cases e with
  | start key pointer origin now => exact h.start key pointer origin now
  | move point =>
    rcases t.move_cases point with hmove | hmove
    · simp only [PressTracker.handle, hmove]
      exact h.cancel rfl rfl rfl
    · simp only [PressTracker.handle, hmove]
      exact h.still rfl nofun rfl
  | cancel => exact h.cancel rfl rfl rfl
  | poll now =>
    rcases t.poll_cases now with hpoll | ⟨key, hpoll⟩
    · simp only [PressTracker.handle, hpoll]
      exact h.still rfl nofun rfl
    · have htold : (t.poll now).1 = some key := congrArg Prod.fst hpoll
      obtain ⟨press, hactive, rfl, -, -, hlong⟩ := poll_eq_some_iff.1 htold
      have hmarked : t.marked = { t with active := some { press with longPressed := true } } := by
        rw [marked, hactive]
        rfl
      simp only [PressTracker.handle, hpoll, hmarked]
      exact h.told hactive hlong
  | finish target point now =>
    rcases t.finish_cases target point now with hnone | ⟨press, hactive, htarget, hstrays⟩
    · simp only [PressTracker.handle, hnone]
      exact h.cancel rfl rfl rfl
    · simp only [PressTracker.handle, finish_of_active hactive htarget hstrays]
      exact h.clicked press press.longPressed

/-! ## Runs -/

theorem history_concat (t : PressTracker K) (events : List (PressEvent K)) (e : PressEvent K) :
    t.history (events ++ [e]) = t.history events ++ [((t.run events).handle e).1] := by
  induction events generalizing t with
  | nil => rfl
  | cons e' events ih => exact congrArg ((t.handle e').1 :: ·) (ih (t.handle e').2)

theorem run_concat (t : PressTracker K) (events : List (PressEvent K)) (e : PressEvent K) :
    t.run (events ++ [e]) = ((t.run events).handle e).2 := by
  unfold run
  rw [List.foldl_append]
  rfl

theorem recalls_run (config : PressConfig) (events : List (PressEvent K)) :
    Recalls config ((new config).history events) ((new config).run events) := by
  induction events using List.reverseRecOn with
  | nil => exact recalls_new config
  | append_singleton events e ih =>
    rw [history_concat, run_concat]
    exact ih.handle e

/-- **Presses.** After every run of events, in whatever order and at whatever times, a press ends in
a click exactly if it is the last one that began and is not over, ends over its key and does not
stray. The click has the key and the pointer of the press, counts one more than the clicks that lead
up to it, and comes after a long press if a poll has told of the press. A poll tells of a press
exactly if it is made with a touch that has been held long enough and none has told of it before; so
for each press that begins there is one such poll at most. -/
theorem press_answers_iff (config : PressConfig) (events : List (PressEvent K)) :
    let past := (new config).history events
    let t := (new config).run events
    (∀ target point now click, (t.finish target point now).1 = some click ↔
      ∃ press since, Pending past press since ∧ target = some press.key ∧
        strays config press.origin point = false ∧
        click = { key := press.key, pointer := press.pointer,
                  count := preceding config.doubleClick press.key now (clicks past) + 1,
                  afterLongPress := press.longPressed }) ∧
    (∀ now key, (t.poll now).1 = some key ↔
      ∃ press since, Pending past press since ∧ press.key = key ∧ press.pointer = .touch ∧
        config.longPress ≤ now - press.started ∧ press.longPressed = false) ∧
    TellsOnce past := by
  intro past t
  have h : Recalls config past t := recalls_run config events
  refine ⟨fun target point now click => ?_, fun now key => ?_, h.once⟩
  · rw [finish_eq_some_iff]
    simp only [h.active_iff, h.sameConfig, h.clickCount, exists_and_right]
  · rw [poll_eq_some_iff]
    simp only [h.active_iff, h.sameConfig, exists_and_right]

end Event

/-- A tap, and a touch that follows at once and is held. -/
def tapAndHold : List (PressEvent Nat) :=
  [.start 1 .mouse .zero 0, .finish (some 1) .zero 300, .start 1 .touch .zero 300, .poll 800]

theorem strays_zero : strays {} .zero .zero = false := by decide +kernel

theorem history_tapAndHold :
    (new {}).history tapAndHold =
      [.start 1 .mouse .zero 0,
        .finish (some 1) .zero 300
          (some { key := 1, pointer := .mouse, count := 1, afterLongPress := false }),
        .start 1 .touch .zero 300, .poll 800 (some 1)] := by
  have htap : ((new {}).start 1 .mouse .zero 0).finish (some 1) .zero 300 = _ :=
    finish_of_active rfl rfl strays_zero
  simp only [tapAndHold, history, handle, htap]
  rfl

/-- When the touch ends, it is a second click and comes after a long press. -/
theorem press_answers_iff_tapAndHold :
    (((new {}).run tapAndHold).finish (some 1) .zero 800).1 =
      some { key := 1, pointer := .touch, count := 2, afterLongPress := true } := by
  obtain ⟨hclicks, -, -⟩ := press_answers_iff {} tapAndHold
  rw [history_tapAndHold] at hclicks
  refine (hclicks _ _ _ _).2 ⟨⟨1, .touch, .zero, 300, true⟩, [.poll 800 (some 1)], ⟨?_, ?_, ?_⟩,
    rfl, strays_zero, rfl⟩
  · exact ⟨[_, _], rfl⟩
  · exact List.forall_mem_singleton.2 rfl
  · exact iff_of_true rfl ⟨800, List.mem_cons_self⟩

end PressTracker

end Listbox

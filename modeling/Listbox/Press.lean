import Listbox.Input
import Listbox.Navigation.Geometry

set_option autoImplicit false

/-! # Presses

A `PressTracker` follows one press from its start to its end. A press that stays within the slop of
where it began and ends over its key is a click; clicks on one key that follow each other quickly
are counted; and a touch that is held becomes a long press, once. -/

universe u

namespace Listbox

structure PressConfig where
  /-- The longest time, in milliseconds, between two clicks of a double click. -/
  doubleClick : Nat := 500
  /-- How long a touch is held before it is a long press. -/
  longPress : Nat := 500
  /-- How far a press may stray. -/
  slop : Float := 8

/-- A press that has ended where it should. -/
structure Click (K : Type u) where
  key : K
  pointer : PointerType
  /-- Which one it is in a quick succession of clicks on the key. It has no bound; a count of 32 bits
  agrees with it below `2 ^ 32`. -/
  count : Nat
  afterLongPress : Bool
  deriving DecidableEq

/-- A press that has begun. -/
structure ActivePress (K : Type u) where
  key : K
  pointer : PointerType
  origin : Point
  started : Nat
  /-- Whether it has been reported as a long press. -/
  longPressed : Bool

/-- The click that the next one is counted from. -/
structure LastClick (K : Type u) where
  key : K
  time : Nat
  /-- The `Click.count` of that click. -/
  count : Nat
  deriving DecidableEq

structure PressTracker (K : Type u) where
  config : PressConfig
  active : Option (ActivePress K)
  lastClick : Option (LastClick K)

namespace PressTracker

variable {K : Type u}

/-- No press, and no click before it. -/
def new (config : PressConfig) : PressTracker K := ⟨config, none, none⟩

def pressedKey? (t : PressTracker K) : Option K := t.active.map (·.key)

def pointer? (t : PressTracker K) : Option PointerType := t.active.map (·.pointer)

def isPressing (t : PressTracker K) : Bool := t.active.isSome

def isPressed [DecidableEq K] (t : PressTracker K) (k : K) : Bool := t.pressedKey? == some k

/-- Whether a press that began at `origin` has strayed too far at `point`. -/
def strays (config : PressConfig) (origin point : Point) : Bool :=
  origin.squaredDistance point > config.slop * config.slop

/-- Begins a press; one that is going on is forgotten. -/
def start (t : PressTracker K) (key : K) (pointer : PointerType) (origin : Point) (now : Nat) :
    PressTracker K :=
  { t with active := some { key, pointer, origin, started := now, longPressed := false } }

/-- Gives the press up. -/
def cancel (t : PressTracker K) : PressTracker K := { t with active := none }

/-- Moves the pointer, and tells whether that gives the press up. -/
def move (t : PressTracker K) (point : Point) : Bool × PressTracker K :=
  if t.active.any fun press => strays t.config press.origin point then (true, t.cancel)
  else (false, t)

/-- Whether a press is a long one by now. -/
def isLong (config : PressConfig) (press : ActivePress K) (now : Nat) : Bool :=
  press.pointer == .touch && config.longPress ≤ now - press.started

/-- The key of a press that has just become a long one. -/
def poll (t : PressTracker K) (now : Nat) : Option K × PressTracker K :=
  match t.active with
  | some press =>
    if !press.longPressed && isLong t.config press now then
      (some press.key, { t with active := some { press with longPressed := true } })
    else (none, t)
  | none => (none, t)

/-- Which one a click on `key` is in its succession. -/
def clickCount [DecidableEq K] (t : PressTracker K) (key : K) (now : Nat) : Nat :=
  match t.lastClick with
  | some last =>
    if last.key = key ∧ now - last.time ≤ t.config.doubleClick then last.count + 1 else 1
  | none => 1

/-- Ends the press over a key or over none. -/
def finish [DecidableEq K] (t : PressTracker K) (target : Option K) (point : Point) (now : Nat) :
    Option (Click K) × PressTracker K :=
  match t.active with
  | none => (none, t)
  | some press =>
    if target = some press.key ∧ !strays t.config press.origin point then
      let count := t.clickCount press.key now
      (some { key := press.key, pointer := press.pointer, count,
              afterLongPress := press.longPressed },
        { t with active := none, lastClick := some { key := press.key, time := now, count } })
    else (none, t.cancel)

end PressTracker

/-! ## Runs -/

/-- What can happen to a press tracker. -/
inductive PressEvent (K : Type u) where
  | start (key : K) (pointer : PointerType) (origin : Point) (now : Nat)
  | move (point : Point)
  | cancel
  | poll (now : Nat)
  | finish (target : Option K) (point : Point) (now : Nat)

/-- What has happened to a press tracker, with what it has answered. -/
inductive PressRecord (K : Type u) where
  | start (key : K) (pointer : PointerType) (origin : Point) (now : Nat)
  | move (point : Point) (givenUp : Bool)
  | cancel
  | poll (now : Nat) (held : Option K)
  | finish (target : Option K) (point : Point) (now : Nat) (click : Option (Click K))

namespace PressTracker

variable {K : Type u} [DecidableEq K]

/-- Takes in an event: the record of it, and the press tracker after it. -/
def handle (t : PressTracker K) : PressEvent K → PressRecord K × PressTracker K
  | .start key pointer origin now =>
    (.start key pointer origin now, t.start key pointer origin now)
  | .move point => (.move point (t.move point).1, (t.move point).2)
  | .cancel => (.cancel, t.cancel)
  | .poll now => (.poll now (t.poll now).1, (t.poll now).2)
  | .finish target point now =>
    (.finish target point now (t.finish target point now).1, (t.finish target point now).2)

/-- The press tracker after several events, in order. -/
def run (t : PressTracker K) (events : List (PressEvent K)) : PressTracker K :=
  events.foldl (fun t e => (t.handle e).2) t

/-- The records of several events, in order. -/
def history (t : PressTracker K) : List (PressEvent K) → List (PressRecord K)
  | [] => []
  | e :: events => (t.handle e).1 :: (t.handle e).2.history events

end PressTracker

end Listbox

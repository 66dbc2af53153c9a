import Listbox.Collection.Edition

set_option autoImplicit false

/-! # Loading collections

A loader publishes collections that arrive late. Each request gets a ticket, and only the request in
flight may publish: beginning another one or aborting takes its place away, and its result is
dropped when it comes. The signal of a request is raised when the request loses its place before it
completes. -/

universe u v w

namespace Listbox

/-- The receipt for a request. -/
structure Ticket where
  number : Nat
  deriving DecidableEq

/-- How a log names a ticket. -/
def Ticket.describe (t : Ticket) : String := s!"LoadTicket({t.number})"

/-- What a request is for. -/
inductive LoadKind where
  | initial
  | more
  | filter
  deriving DecidableEq

/-- What a loader is doing. -/
inductive LoadState where
  | idle
  | loading
  | loadingMore
  | filtering
  /-- The last request to complete did not bring a collection. -/
  | failed
  deriving DecidableEq

/-- What a loader is doing while a request is in flight. -/
def LoadKind.state : LoadKind → LoadState
  | .initial => .loading
  | .more => .loadingMore
  | .filter => .filtering

/-- What became of a result. -/
inductive LoadOutcome (K : Type u) (T : Type v) (ε : Type w) [DecidableEq K] [Hashable K] where
  | published (edition : Edition K T)
  | aborted
  | failed (error : ε)

/-- The published collection and the request in flight. -/
structure Loader (K : Type u) (T : Type v) [DecidableEq K] [Hashable K] where
  current : Edition K T
  inFlight : Option Ticket
  /-- The number of the next ticket. It has no bound; a counter of 64 bits agrees with it for the
  first `2 ^ 64` requests. -/
  nextTicket : Nat
  state : LoadState
  /-- The requests whose signals are raised. -/
  abortedTickets : List Ticket

namespace Loader

variable {K : Type u} {T : Type v} {ε : Type w} [DecidableEq K] [Hashable K]

/-- A loader at rest. -/
def ofCollection (c : Collection K T) : Loader K T :=
  { current := ⟨0, c⟩, inFlight := none, nextTicket := 0, state := .idle, abortedTickets := [] }

def collection (l : Loader K T) : Collection K T := l.current.collection

def isLoading (l : Loader K T) : Bool := l.inFlight.isSome

/-- Whether the signal of a request is raised. -/
def isAborted (l : Loader K T) (t : Ticket) : Bool := t ∈ l.abortedTickets

/-- Takes the place of the request in flight, if there is one, and raises its signal. -/
def withdraw (l : Loader K T) : Loader K T :=
  { l with inFlight := none, abortedTickets := l.abortedTickets ++ l.inFlight.toList }

/-- Puts a new request in flight. -/
def start (l : Loader K T) (kind : LoadKind) : Ticket × Loader K T :=
  let t : Ticket := ⟨l.nextTicket⟩
  (t, { l.withdraw with
    inFlight := some t
    nextTicket := l.nextTicket + 1
    state := kind.state })

/-- Calls the request in flight off. -/
def abort (l : Loader K T) : Loader K T :=
  if l.isLoading then { l.withdraw with state := .idle } else l

/-- Takes in the result of a request: it counts if the request is still in flight and its signal is
not raised. -/
def complete (l : Loader K T) (t : Ticket) (result : Except ε (Collection K T)) :
    LoadOutcome K T ε × Loader K T :=
  if l.inFlight = some t ∧ l.isAborted t = false then
    match result with
    | .ok c =>
      let edition : Edition K T := ⟨l.current.number + 1, c⟩
      (.published edition, { l with current := edition, inFlight := none, state := .idle })
    | .error e => (.failed e, { l with inFlight := none, state := .failed })
  else (.aborted, l)

end Loader

/-! ## Runs -/

/-- What can happen to a loader. -/
inductive LoadEvent (K : Type u) (T : Type v) (ε : Type w) [DecidableEq K] [Hashable K] where
  | start (kind : LoadKind)
  | abort
  /-- The result of a request comes in, whichever request that is and however often. -/
  | complete (t : Ticket) (result : Except ε (Collection K T))

namespace Loader

variable {K : Type u} {T : Type v} {ε : Type w} [DecidableEq K] [Hashable K]

/-- The loader after an event. -/
def handle (l : Loader K T) : LoadEvent K T ε → Loader K T
  | .start kind => (l.start kind).2
  | .abort => l.abort
  | .complete t result => (l.complete t result).2

/-- The loader after several events, in order. -/
def run (l : Loader K T) (events : List (LoadEvent K T ε)) : Loader K T := events.foldl handle l

end Loader

end Listbox

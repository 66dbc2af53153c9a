set_option autoImplicit false

/-! # Abort signals

Whoever starts a piece of work keeps a controller, and hands out signals that tell the workers
whether the result is still wanted. Aborting raises every signal of the controller, and nothing
lowers a raised signal. -/

namespace Listbox

/-- The party that may call work off. -/
structure AbortController where
  aborted : Bool
  deriving DecidableEq

/-- What a worker watches: a controller, or nothing at all. -/
inductive AbortSignal where
  | unbound
  | bound
  deriving DecidableEq

namespace AbortController

/-- A controller that has not called anything off. -/
def fresh : AbortController := ⟨false⟩

/-- A signal of the controller. -/
def signal (_ : AbortController) : AbortSignal := .bound

/-- Calls the work off. -/
def abort (_ : AbortController) : AbortController := ⟨true⟩

/-- Whether a signal is raised; one that watches nothing never is. -/
def isAborted (c : AbortController) : AbortSignal → Bool
  | .unbound => false
  | .bound => c.aborted

/-- Aborting twice is aborting once. -/
@[simp] theorem abort_abort (c : AbortController) : c.abort.abort = c.abort := rfl

@[simp] theorem isAborted_abort_signal (c : AbortController) :
    c.abort.isAborted c.signal = true := rfl

end AbortController

end Listbox

import VideoEdit.Engine.Program
import VideoEdit.Failure
import VideoEdit.Log.Event
/-!
Results with what happened on the way to them: events for the log, and starts of the media program.
A failure ends both; the result of a sequence is the sequence of the results.
-/
namespace VideoEdit

/-- A result, what was logged and how the media program was started before it was reached. -/
structure Traced (α : Type) where
  events : List Log.Event
  starts : List Launch
  result : Except Failure α

namespace Traced

/-- A result that nothing happens before. -/
def of {α : Type} (result : Except Failure α) : Traced α := ⟨[], [], result⟩

def log (events : List Log.Event) : Traced Unit := ⟨events, [], .ok ()⟩

def fail {α : Type} (failure : Failure) : Traced α := of (.error failure)

/-- A start of the media program, and what it leaves behind. -/
def start (program : Program) (launch : Launch) : Traced (Except OsError Completion) :=
  ⟨[], [launch], .ok (program.run launch)⟩

/-- What follows a result, and what happens on the way to both. -/
def andThen {α β : Type} (x : Traced α) (f : α → Traced β) : Traced β :=
  match x.result with
  | .ok a => ⟨x.events ++ (f a).events, x.starts ++ (f a).starts, (f a).result⟩
  | .error e => ⟨x.events, x.starts, .error e⟩

instance : Monad Traced where
  pure a := of (.ok a)
  bind := andThen

@[simp] theorem result_of {α : Type} (result : Except Failure α) :
    (of result).result = result := rfl

@[simp] theorem result_log (events : List Log.Event) : (log events).result = .ok () := rfl

@[simp] theorem starts_log (events : List Log.Event) : (log events).starts = [] := rfl

@[simp] theorem result_start (program : Program) (launch : Launch) :
    (start program launch).result = .ok (program.run launch) := rfl

@[simp] theorem starts_start (program : Program) (launch : Launch) :
    (start program launch).starts = [launch] := rfl

@[simp] theorem result_pure {α : Type} (a : α) : (pure a : Traced α).result = .ok a := rfl

@[simp] theorem starts_pure {α : Type} (a : α) : (pure a : Traced α).starts = [] := rfl

theorem result_bind {α β : Type} (x : Traced α) (f : α → Traced β) :
    (x >>= f).result = x.result.bind fun a => (f a).result := by
  show (andThen x f).result = _
  unfold andThen
  cases x.result <;> rfl

theorem starts_bind {α β : Type} (x : Traced α) (f : α → Traced β) :
    (x >>= f).starts = x.starts ++ match x.result with
      | .ok a => (f a).starts
      | .error _ => [] := by
  show (andThen x f).starts = _
  unfold andThen
  cases x.result with
  | ok a => rfl
  | error e => exact (List.append_nil _).symm

/-- What follows a result is reached with what happened before it. -/
theorem bind_of_ok {α β : Type} {x : Traced α} {a : α} (h : x.result = .ok a) (f : α → Traced β) :
    (x >>= f).result = (f a).result ∧ (x >>= f).starts = x.starts ++ (f a).starts := by
  rw [result_bind, starts_bind, h]
  exact ⟨rfl, rfl⟩

/-- A sequence has a result exactly if its first part has one and what follows that has one. -/
theorem result_bind_eq_ok_iff {α β : Type} {x : Traced α} {f : α → Traced β} {b : β} :
    (x >>= f).result = .ok b ↔ ∃ a, x.result = .ok a ∧ (f a).result = .ok b := by
  rw [result_bind]
  cases x.result <;> simp [Except.bind]

/-- Nothing follows a failure. -/
theorem bind_of_error {α β : Type} {x : Traced α} {e : Failure} (h : x.result = .error e)
    (f : α → Traced β) : (x >>= f).result = .error e ∧ (x >>= f).starts = x.starts := by
  rw [result_bind, starts_bind, h]
  exact ⟨rfl, List.append_nil _⟩

end Traced

end VideoEdit

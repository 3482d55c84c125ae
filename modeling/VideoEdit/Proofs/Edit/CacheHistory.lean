import Mathlib.Data.List.Basic
import VideoEdit.Edit.PlanCache
/-!
# Histories of a cache

Whatever calls came before, a cache gives the plan that the prompt and the policy lead to. What it
keeps is the plan of the latest call that was no question.
-/
namespace VideoEdit
namespace PlanCache

/-- A call on a cache: for the plan of a prompt, with the question whether it is kept, or to drop
what is kept. -/
inductive Call
  | get (prompt : String) (policy : DuplicatePolicy)
  | has (prompt : String) (policy : DuplicatePolicy)
  | clear
  deriving DecidableEq

inductive Answer
  | plan (plan : Plan)
  | kept (isKept : Bool)
  | done
  deriving DecidableEq

def Call.isQuestion : Call → Bool
  | has .. => true
  | get .. | clear => false

@[simp] theorem Call.isQuestion_has (prompt : String) (policy : DuplicatePolicy) :
    (has prompt policy).isQuestion = true := rfl

@[simp] theorem Call.isQuestion_get (prompt : String) (policy : DuplicatePolicy) :
    (get prompt policy).isQuestion = false := rfl

@[simp] theorem Call.isQuestion_clear : clear.isQuestion = false := rfl

def perform (cache : PlanCache) : Call → Answer × PlanCache
  | .get prompt policy => (.plan (cache.get prompt policy).1, (cache.get prompt policy).2)
  | .has prompt policy => (.kept (cache.has prompt policy), cache)
  | .clear => (.done, cache.clear)

def run (cache : PlanCache) : List Call → List Answer × PlanCache
  | [] => ([], cache)
  | call :: calls =>
    let rest := (cache.perform call).2.run calls
    ((cache.perform call).1 :: rest.1, rest.2)

/-- The latest call of a history that was no question. -/
def latest? (history : List Call) : Option Call :=
  (history.filter fun call => !call.isQuestion).getLast?

def Call.expected (history : List Call) : Call → Answer
  | get prompt policy => .plan (Plan.ofPrompt prompt policy)
  | has prompt policy => .kept (latest? history = some (.get prompt policy))
  | clear => .done

def leftBy (history : List Call) : PlanCache :=
  match latest? history with
  | some (.get prompt policy) => ⟨some ⟨prompt, policy, Plan.ofPrompt prompt policy⟩⟩
  | _ => empty

private theorem latest?_concat (history : List Call) (call : Call) :
    latest? (history ++ [call]) = if call.isQuestion then latest? history else some call := by
  cases h : call.isQuestion <;> simp [latest?, h]

private theorem Entry.isFor_iff (entry : Entry) (prompt : String) (policy : DuplicatePolicy) :
    entry.isFor prompt policy ↔ entry.prompt = prompt ∧ entry.policy = policy := by
  simp [isFor]

private theorem has_leftBy (history : List Call) (prompt : String) (policy : DuplicatePolicy) :
    (leftBy history).has prompt policy = decide (latest? history = some (.get prompt policy)) := by
  unfold leftBy
  split
  · next prompt' policy' h => simp [has, Entry.isFor, h]
  · next hother =>
    rw [eq_comm, decide_eq_false_iff_not.2 (hother prompt policy)]
    rfl

private theorem get_leftBy (history : List Call) (prompt : String) (policy : DuplicatePolicy) :
    (leftBy history).get prompt policy =
      (Plan.ofPrompt prompt policy, leftBy (history ++ [.get prompt policy])) := by
  have hafter : leftBy (history ++ [.get prompt policy]) =
      ⟨some ⟨prompt, policy, Plan.ofPrompt prompt policy⟩⟩ := by
    simp [leftBy, latest?_concat]
  rw [hafter]
  unfold leftBy
  split
  · next prompt' policy' h =>
    rw [get]
    dsimp only
    split_ifs with hfor
    · -- What is kept for this prompt and policy is the plan that they lead to.
      obtain ⟨rfl, rfl⟩ := (Entry.isFor_iff _ prompt policy).1 hfor
      rfl
    · rfl
  · rfl

/-- One call: it gives back what it is to give back, and the cache is that of the longer history. -/
theorem perform_leftBy (history : List Call) (call : Call) :
    (leftBy history).perform call = (call.expected history, leftBy (history ++ [call])) := by
  cases call with
  | get prompt policy =>
    rw [perform, get_leftBy]
    rfl
  | has prompt policy =>
    have hsame : leftBy (history ++ [.has prompt policy]) = leftBy history := by
      simp [leftBy, latest?_concat]
    rw [perform, has_leftBy, hsame]
    rfl
  | clear =>
    have hempty : leftBy (history ++ [.clear]) = empty := by
      simp [leftBy, latest?_concat]
    rw [perform, hempty]
    rfl

private theorem run_leftBy (history calls : List Call) :
    ((leftBy history).run calls).2 = leftBy (history ++ calls) ∧
    ∀ i, ((leftBy history).run calls).1[i]? =
      calls[i]?.map (Call.expected (history ++ calls.take i)) := by
  -- The history takes each call over from the calls that are still to come.
  induction calls generalizing history with
  | nil => simp [run]
  | cons call calls ih =>
    obtain ⟨hcache, hanswers⟩ := ih (history ++ [call])
    simp only [List.append_assoc, List.singleton_append] at hcache hanswers
    rw [run, perform_leftBy]
    refine ⟨hcache, fun i => ?_⟩
    cases i with
    | zero => simp
    | succ i => simpa using hanswers i

private theorem run_filter (cache : PlanCache) (calls : List Call) :
    let others := calls.filter fun call => !call.isQuestion
    (cache.run calls).2 = (cache.run others).2 ∧
    (calls.zip (cache.run calls).1).filter (fun step => !step.1.isQuestion) =
      others.zip (cache.run others).1 := by
  induction calls generalizing cache with
  | nil => exact ⟨rfl, rfl⟩
  | cons call calls ih =>
    obtain ⟨hcache, hanswers⟩ := ih (cache.perform call).2
    cases call with
    | has prompt policy =>
      exact ⟨hcache, hanswers⟩
    | get prompt policy =>
      refine ⟨hcache, ?_⟩
      simp [run, hanswers]
    | clear =>
      refine ⟨hcache, ?_⟩
      simp [run, hanswers]

/-- Whatever calls are made on a new cache, each call for a plan gives the plan that the prompt and
the policy lead to. At every point just that plan is kept whose prompt and policy the latest call
named that was no question, and each question is answered so. The questions themselves change
neither what is kept nor what the other calls give back. -/
theorem run_empty (calls : List Call) :
    (∀ i, (empty.run calls).1[i]? = calls[i]?.map (Call.expected (calls.take i))) ∧
    (∀ prompt policy, (empty.run calls).2.has prompt policy ↔
      latest? calls = some (.get prompt policy)) ∧
    let others := calls.filter fun call => !call.isQuestion
    (empty.run calls).2 = (empty.run others).2 ∧
    (calls.zip (empty.run calls).1).filter (fun step => !step.1.isQuestion) =
      others.zip (empty.run others).1 := by
  obtain ⟨hcache, hanswers⟩ := run_leftBy [] calls
  rw [List.nil_append] at hcache
  refine ⟨hanswers, fun prompt policy => ?_, run_filter empty calls⟩
  change ((leftBy []).run calls).2.has prompt policy ↔ _
  rw [hcache, has_leftBy, decide_eq_true_iff]

end PlanCache
end VideoEdit

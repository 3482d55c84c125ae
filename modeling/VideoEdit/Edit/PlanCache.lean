import VideoEdit.Edit.Plan
/-!
A cache that keeps the plan of the latest prompt, so that an unchanged prompt is not read again.
-/
namespace VideoEdit

/-- A plan and the prompt and policy it was made from. -/
structure PlanCache.Entry where
  prompt : String
  policy : DuplicatePolicy
  plan : Plan

/-- At most one kept plan. -/
structure PlanCache where
  entry : Option PlanCache.Entry

namespace PlanCache

def empty : PlanCache := ⟨none⟩

def Entry.isFor (e : Entry) (prompt : String) (policy : DuplicatePolicy) : Bool :=
  e.prompt = prompt && e.policy = policy

def has (cache : PlanCache) (prompt : String) (policy : DuplicatePolicy) : Bool :=
  cache.entry.any (·.isFor prompt policy)

/-- The plan for a prompt, from the cache if it is kept there, and the cache that then keeps it. -/
def get (cache : PlanCache) (prompt : String) (policy : DuplicatePolicy) : Plan × PlanCache :=
  match cache.entry with
  | some entry =>
    if entry.isFor prompt policy then (entry.plan, cache)
    else fresh prompt policy
  | none => fresh prompt policy
where
  /-- A plan made anew, and the cache that keeps it. -/
  fresh (prompt : String) (policy : DuplicatePolicy) : Plan × PlanCache :=
    let plan := Plan.ofPrompt prompt policy
    (plan, ⟨some ⟨prompt, policy, plan⟩⟩)

def clear (_ : PlanCache) : PlanCache := empty

end PlanCache

end VideoEdit

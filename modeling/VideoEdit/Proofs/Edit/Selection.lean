import VideoEdit.Edit.Plan
/-!
# Selection of the operations of a plan

A plan is the only list of operations with strictly increasing ranks that holds, for each kind,
the first or last valid mention. A table filled mention by mention selects the same operations.
-/
namespace VideoEdit

/-- Whether a mention stands for a kind: it names a valid operation of that kind. -/
def Mention.counts (kind : Kind) (m : Mention) : Bool :=
  m.operation.isValid && m.operation.kind = kind

/-- The members of a list that count before one of them, given what stands on its two sides. -/
def DuplicatePolicy.rivals {α : Type} : DuplicatePolicy → List α → List α → List α
  | first, before, _ => before
  | last, _, after => after

/-- An operation is kept when it is valid and mentioned where no valid mention of its kind counts
before that one. -/
def Extraction.Keeps (e : Extraction) (policy : DuplicatePolicy) (op : Operation) : Prop :=
  ∃ before m after, e.mentions = before ++ m :: after ∧ m.operation = op ∧ op.isValid ∧
    ∀ other ∈ policy.rivals before after,
      other.operation.isValid → other.operation.kind ≠ op.kind

/-- The plan that an extraction determines: what is kept, by rank, in the extraction's format. -/
structure Extraction.Determines (e : Extraction) (policy : DuplicatePolicy) (p : Plan) : Prop where
  ordered : p.operations.Pairwise fun a b => a.kind.rank < b.kind.rank
  kept : ∀ op, op ∈ p.operations ↔ e.Keeps policy op
  output : p.output = e.output

/-- The operations kept so far, by kind. -/
abbrev Selection := Kind → Option Operation

namespace Selection

/-- Takes one operation into account: an invalid one changes nothing, and a valid one replaces an
earlier one of its kind only if the last one counts. -/
def enter (policy : DuplicatePolicy) (kept : Selection) (op : Operation) : Selection :=
  if op.isValid then
    match policy, kept op.kind with
    | .first, some _ => kept
    | _, _ => fun kind => if op.kind = kind then some op else kept kind
  else kept

def operations (kept : Selection) : List Operation := Kind.all.filterMap kept

end Selection

theorem Kind.mem_all (kind : Kind) : kind ∈ all := by cases kind <;> decide

private theorem Kind.all_ordered : all.Pairwise fun a b => a.rank < b.rank := by decide

private theorem pick_toList_append (policy : DuplicatePolicy) {α : Type} (xs ys : List α) :
    policy.pick ((policy.pick xs).toList ++ ys) = policy.pick (xs ++ ys) := by
  cases policy with
  | first => cases xs <;> simp [DuplicatePolicy.pick]
  | last =>
    simp only [DuplicatePolicy.pick, List.getLast?_append]
    cases ys.getLast? <;> cases xs.getLast? <;> simp

private theorem Selection.enter_apply (policy : DuplicatePolicy) (kept : Selection)
    (op : Operation) (kind : Kind) :
    kept.enter policy op kind =
      policy.pick ((kept kind).toList ++ [op].filter fun op => op.isValid && op.kind = kind) := by
  unfold Selection.enter
  by_cases hv : op.isValid
  · by_cases hk : op.kind = kind
    · subst hk
      cases policy <;> cases hs : kept op.kind <;> simp [hv, hs, DuplicatePolicy.pick]
    · cases policy <;> cases hs : kept op.kind <;> cases ho : kept kind <;>
        simp [hv, hk, ho, DuplicatePolicy.pick]
  · cases policy <;> cases ho : kept kind <;> simp [hv, ho, DuplicatePolicy.pick]

/-- Entering a list of operations keeps, of each kind, what the policy picks among the valid ones. -/
theorem Selection.enter_all (policy : DuplicatePolicy) (ops : List Operation) (kept : Selection)
    (kind : Kind) :
    ops.foldl (Selection.enter policy) kept kind =
      policy.pick ((kept kind).toList ++ ops.filter fun op => op.isValid && op.kind = kind) := by
  induction ops generalizing kept with
  | nil => cases policy <;> cases h : kept kind <;> simp [h, DuplicatePolicy.pick]
  | cons op ops ih =>
    simp only [List.foldl_cons]
    rw [ih, Selection.enter_apply, pick_toList_append, List.append_assoc, ← List.filter_append,
      List.singleton_append]

theorem Plan.isMuted_iff (p : Plan) : p.isMuted ↔ .mute ∈ p.operations := by
  simp only [isMuted, contains, List.any_eq_true, decide_eq_true_eq]
  constructor
  · rintro ⟨_ | _, hop, hkind⟩ <;> simp_all [Operation.kind]
  · exact fun h => ⟨_, h, rfl⟩

namespace Extraction
variable (e : Extraction) (policy : DuplicatePolicy)

private theorem chosen?_eq_pick (kind : Kind) :
    e.chosen? policy kind =
      (policy.pick (e.mentions.filter (Mention.counts kind))).map Mention.operation := by
  unfold chosen?
  rw [List.filter_map]
  cases policy
  · exact List.head?_map
  · exact List.getLast?_map

theorem chosen?_eq_some_iff (kind : Kind) (op : Operation) :
    e.chosen? policy kind = some op ↔ e.Keeps policy op ∧ op.kind = kind := by
  rw [chosen?_eq_pick, Option.map_eq_some_iff]
  constructor
  · rintro ⟨m, hm, rfl⟩
    cases policy with
    | first =>
      rw [DuplicatePolicy.pick, List.head?_filter, List.find?_eq_some_iff_append] at hm
      obtain ⟨hc, before, after, hs, hb⟩ := hm
      simp only [Mention.counts, Bool.and_eq_true, decide_eq_true_eq] at hc
      refine ⟨⟨before, m, after, hs, rfl, hc.1, ?_⟩, hc.2⟩
      intro other ho hv hk
      simpa [Mention.counts, hv, hk, hc.2] using hb other ho
    | last =>
      rw [DuplicatePolicy.pick, List.getLast?_filter, List.find?_eq_some_iff_append] at hm
      obtain ⟨hc, after, before, hs, hb⟩ := hm
      simp only [Mention.counts, Bool.and_eq_true, decide_eq_true_eq] at hc
      refine ⟨⟨before.reverse, m, after.reverse, ?_, rfl, hc.1, ?_⟩, hc.2⟩
      · simpa using congrArg List.reverse hs
      · intro other ho hv hk
        simpa [Mention.counts, hv, hk, hc.2] using
          hb other (by simpa [DuplicatePolicy.rivals] using ho)
  · rintro ⟨⟨before, m, after, hs, rfl, hv, hb⟩, hk⟩
    refine ⟨m, ?_, rfl⟩
    have hc : m.counts kind := by simp [Mention.counts, hv, hk]
    have hb' : ∀ other ∈ policy.rivals before after, (!other.counts kind) = true := by
      intro other ho
      have hne := hb other ho
      rw [hk] at hne
      cases hov : other.operation.isValid <;> simp [Mention.counts, hov, hne]
    cases policy with
    | first =>
      rw [DuplicatePolicy.pick, List.head?_filter, List.find?_eq_some_iff_append]
      exact ⟨hc, before, after, hs, hb'⟩
    | last =>
      rw [DuplicatePolicy.pick, List.getLast?_filter, List.find?_eq_some_iff_append]
      refine ⟨hc, after.reverse, before.reverse, by simp [hs], ?_⟩
      intro other ho
      exact hb' other (by simpa [DuplicatePolicy.rivals] using ho)

theorem mem_plan_iff (op : Operation) : op ∈ (e.plan policy).operations ↔ e.Keeps policy op := by
  simp only [plan, List.mem_filterMap, chosen?_eq_some_iff]
  constructor
  · rintro ⟨kind, _, hk, _⟩
    exact hk
  · intro hk
    exact ⟨op.kind, Kind.mem_all _, hk, rfl⟩

private theorem plan_ordered :
    (e.plan policy).operations.Pairwise fun a b => a.kind.rank < b.kind.rank := by
  refine Kind.all_ordered.filterMap _ ?_
  intro k k' hlt op hop op' hop'
  rw [((e.chosen?_eq_some_iff policy k op).1 hop).2, ((e.chosen?_eq_some_iff policy k' op').1 hop').2]
  exact hlt

theorem plan_valid {op : Operation} (h : op ∈ (e.plan policy).operations) : op.isValid := by
  obtain ⟨_, _, _, _, _, hv, _⟩ := (e.mem_plan_iff policy op).1 h
  exact hv

theorem plan_unique {a b : Operation} (ha : a ∈ (e.plan policy).operations)
    (hb : b ∈ (e.plan policy).operations) (hkind : a.kind = b.kind) : a = b := by
  have hchosen {op : Operation} (hop : op ∈ (e.plan policy).operations) :
      e.chosen? policy op.kind = some op :=
    (e.chosen?_eq_some_iff policy op.kind op).2 ⟨(e.mem_plan_iff policy op).1 hop, rfl⟩
  have hsome := hchosen ha
  rw [hkind, hchosen hb] at hsome
  exact (Option.some.inj hsome).symm

theorem plan_split {op : Operation} (h : op ∈ (e.plan policy).operations) :
    ∃ before after, (e.plan policy).operations = before ++ op :: after ∧
      ∀ other ∈ before ++ after, other.kind ≠ op.kind := by
  obtain ⟨before, after, hops⟩ := List.append_of_mem h
  have hordered := e.plan_ordered policy
  rw [hops, List.pairwise_append, List.pairwise_cons] at hordered
  refine ⟨before, after, hops, ?_⟩
  intro other hother hkind
  rcases List.mem_append.1 hother with hother | hother
  · have hlt := hordered.2.2 other hother op List.mem_cons_self
    rw [hkind] at hlt
    exact Nat.lt_irrefl _ hlt
  · have hlt := hordered.2.1.1 other hother
    rw [hkind] at hlt
    exact Nat.lt_irrefl _ hlt

private theorem plan_find_iff {α : Type} {find : Operation → Option α} (make : α → Operation)
    (hfind : ∀ op x, find op = some x ↔ op = make x) (hkind : ∀ x y, (make x).kind = (make y).kind)
    (x : α) :
    (e.plan policy).operations.findSome? find = some x ↔ make x ∈ (e.plan policy).operations := by
  constructor
  · intro hx
    obtain ⟨op, hop, hopx⟩ := List.exists_of_findSome?_eq_some hx
    rwa [← (hfind op x).1 hopx]
  · intro hx
    cases hy : (e.plan policy).operations.findSome? find with
    | none =>
      have hnone := List.findSome?_eq_none_iff.1 hy _ hx
      rw [(hfind _ x).2 rfl] at hnone
      cases hnone
    | some y =>
      obtain ⟨op, hop, hopy⟩ := List.exists_of_findSome?_eq_some hy
      rw [(hfind op y).1 hopy] at hop
      have hsame := (hfind _ x).2 (e.plan_unique policy hop hx (hkind y x))
      rw [(hfind _ y).2 rfl] at hsame
      exact hsame

theorem plan_trim?_iff (start : Binary64) (finish : Option Binary64) :
    (e.plan policy).trim? = some (start, finish) ↔
      .trim start finish ∈ (e.plan policy).operations := by
  refine e.plan_find_iff policy (fun (s, f) => .trim s f) ?_ (fun _ _ => rfl) (start, finish)
  rintro (_ | _) ⟨s, f⟩ <;> simp

theorem plan_speed?_iff (factor : Binary64) :
    (e.plan policy).speed? = some factor ↔ .speed factor ∈ (e.plan policy).operations := by
  refine e.plan_find_iff policy .speed ?_ (fun _ _ => rfl) factor
  rintro (_ | _) x <;> simp

/-- A plan depends on the format and on the valid mentions of each kind alone. -/
theorem plan_congr {e e' : Extraction} (policy : DuplicatePolicy) (ho : e.output = e'.output)
    (h : ∀ kind, e.chosen? policy kind = e'.chosen? policy kind) :
    e.plan policy = e'.plan policy := by
  have hc : e.chosen? policy = e'.chosen? policy := funext h
  simp [plan, ho, hc]

private theorem plan_determined : e.Determines policy (e.plan policy) :=
  ⟨e.plan_ordered policy, e.mem_plan_iff policy, rfl⟩

/-- Only one plan is determined: lists of strictly increasing rank with the same members agree. -/
theorem Determines.unique {e : Extraction} {policy : DuplicatePolicy} {p q : Plan}
    (hp : e.Determines policy p) (hq : e.Determines policy q) : p = q := by
  have nodup {r : Plan} (hr : e.Determines policy r) : r.operations.Nodup :=
    hr.ordered.imp fun {a b} hlt hab => by simp [hab] at hlt
  have hperm : p.operations.Perm q.operations := by
    rw [List.perm_ext_iff_of_nodup (nodup hp) (nodup hq)]
    intro op
    rw [hp.kept, hq.kept]
  have hops : p.operations = q.operations := by
    refine List.Perm.eq_of_pairwise ?_ hp.ordered hq.ordered hperm
    intro a b _ _ hab hba
    omega
  have hout : p.output = q.output := hp.output.trans hq.output.symm
  cases p
  cases q
  simp_all

theorem chosen?_isSome_iff (kind : Kind) :
    (e.chosen? policy kind).isSome ↔ ∃ m ∈ e.mentions, m.counts kind := by
  rw [chosen?_eq_pick, Option.isSome_map]
  cases policy
  · rw [DuplicatePolicy.pick, List.head?_filter, List.find?_isSome]
  · rw [DuplicatePolicy.pick, List.getLast?_filter, List.find?_isSome]
    simp

private theorem chosen?_last_eq_reverse (kind : Kind) :
    e.chosen? .last kind = { e with mentions := e.mentions.reverse }.chosen? .first kind := by
  simp only [chosen?_eq_pick, DuplicatePolicy.pick, List.filter_reverse, List.head?_reverse]

end Extraction

/-- Every extraction has one plan: the operations kept, at most one of each kind, by rank. All of
them are valid, and a kind is present exactly if a valid mention names it. Filling a table mention
by mention selects the same. So only the order among the valid mentions of one kind matters, and
the last mentions are the first ones read backwards. -/
theorem Extraction.plan_selects (e : Extraction) (policy : DuplicatePolicy) :
    (∀ p, p = e.plan policy ↔ e.Determines policy p) ∧
    (∀ op ∈ (e.plan policy).operations, op.isValid) ∧
    (∀ kind, (e.plan policy).contains kind ↔
      ∃ m ∈ e.mentions, m.operation.isValid ∧ m.operation.kind = kind) ∧
    (e.plan policy).operations =
      ((e.mentions.map Mention.operation).foldl (Selection.enter policy)
        fun _ => none).operations ∧
    (∀ mentions : List Mention,
      (∀ kind, mentions.filter (Mention.counts kind) = e.mentions.filter (Mention.counts kind)) →
      { e with mentions := mentions }.plan policy = e.plan policy) ∧
    e.plan .last = { e with mentions := e.mentions.reverse }.plan .first := by
  refine ⟨?_, ?_, ?_, ?_, ?_, ?_⟩
  · intro p
    constructor
    · rintro rfl
      exact e.plan_determined policy
    · intro hp
      exact hp.unique (e.plan_determined policy)
  · exact fun op => e.plan_valid policy
  · intro kind
    have hs := e.chosen?_isSome_iff policy kind
    simp only [Mention.counts, Bool.and_eq_true, decide_eq_true_eq] at hs
    rw [← hs, Option.isSome_iff_exists]
    simp only [Plan.contains, List.any_eq_true, decide_eq_true_eq, e.mem_plan_iff,
      chosen?_eq_some_iff]
  · simp only [plan, Selection.operations]
    congr 1
    funext kind
    rw [Selection.enter_all]
    rfl
  · intro mentions hm
    refine Extraction.plan_congr policy rfl fun kind => ?_
    rw [chosen?_eq_pick, chosen?_eq_pick, hm kind]
  · have hc := funext e.chosen?_last_eq_reverse
    simp [plan, hc]

/-- Speeds of zero and NaN stand in front of two valid ones, and the sound is removed between
those; moving the mute to the front keeps the order of each kind. -/
theorem plan_selects_interleaved :
    let speed (offset : Nat) (factor : Binary64) : Mention :=
      ⟨offset, .phrase .speed, .speed factor⟩
    let mute (offset : Nat) : Mention := ⟨offset, .phrase .mute, .mute⟩
    let e : Extraction := ⟨[speed 0 0, speed 9 .nan, speed 18 3, mute 27, speed 33 4], .gif⟩
    let moved : List Mention := [mute 27, speed 18 3, speed 9 .nan, speed 33 4, speed 0 0]
    (∀ kind, moved.filter (Mention.counts kind) = e.mentions.filter (Mention.counts kind)) ∧
    { e with mentions := moved }.plan .last = e.plan .last ∧
    (e.plan .first).operations = [.speed 3, .mute] ∧
    (e.plan .last).operations = [.speed 4, .mute] := by
  intro speed mute e moved
  have hm : ∀ kind, moved.filter (Mention.counts kind) =
      e.mentions.filter (Mention.counts kind) := by
    intro kind
    cases kind <;> decide +kernel
  have hp := (Extraction.plan_selects e .last).2.2.2.2.1 moved hm
  exact ⟨hm, hp, by decide +kernel, by decide +kernel⟩

end VideoEdit

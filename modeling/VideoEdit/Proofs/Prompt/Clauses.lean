import VideoEdit.Invocation.Arguments
import VideoEdit.Proofs.Edit.Selection
import VideoEdit.Proofs.Prompt.Findings
/-!
# Prompts made of clauses

Two prompts joined by a comma are read one after the other, unless loose bounds of a window stand
in both. So clauses that name different kinds of operation can be put in any order.
-/
namespace VideoEdit

def Mention.shift (bytes : Nat) (m : Mention) : Mention := { m with offset := m.offset + bytes }

def Extraction.hasBounds (e : Extraction) : Bool := e.mentions.any fun m => m.origin = .bounds

namespace Found

private theorem overlaps_shift (bytes : Nat) (a b : Found) :
    (a.shift bytes).overlaps (b.shift bytes) = a.overlaps b := by
  simp [overlaps, shift]

private theorem mention?_shift (bytes : Nat) (f : Found) :
    (f.shift bytes).mention? = f.mention?.map (Mention.shift bytes) := by
  cases f with
  | mk start stop rule finding => cases finding <;> rfl

theorem mention?_eq_some {f : Found} {m : Mention} (h : f.mention? = some m) :
    m.offset = f.start ∧ m.origin = .phrase f.rule := by
  unfold mention? at h
  split at h
  · cases h
    exact ⟨rfl, rfl⟩
  · cases h

end Found

namespace Prompt

private theorem insertMention_append_left {mention : Mention} {front back : List Mention}
    (h : ∀ m ∈ back, mention.offset < m.offset) :
    insertMention mention (front ++ back) = insertMention mention front ++ back := by
  induction front with
  | nil =>
    cases back with
    | nil => rfl
    | cons m back =>
      have hm : ¬m.offset ≤ mention.offset := Nat.not_le.2 (h m List.mem_cons_self)
      simp [insertMention, hm]
  | cons m front ih =>
    by_cases hm : m.offset ≤ mention.offset
    · simp only [insertMention] at ih
      simp [insertMention, hm, ih]
    · simp [insertMention, hm]

private theorem insertMention_append_right {mention : Mention} {front back : List Mention}
    (h : ∀ m ∈ front, m.offset ≤ mention.offset) :
    insertMention mention (front ++ back) = front ++ insertMention mention back := by
  have hall : ∀ m ∈ front, decide (m.offset ≤ mention.offset) := by simpa using h
  unfold insertMention
  rw [List.takeWhile_append_of_pos hall, List.dropWhile_append_of_pos hall, List.append_assoc]

private theorem insertMention_shift (bytes : Nat) (mention : Mention) (mentions : List Mention) :
    insertMention (mention.shift bytes) (mentions.map (Mention.shift bytes)) =
      (insertMention mention mentions).map (Mention.shift bytes) := by
  have hpred : (fun m : Mention => decide (m.offset ≤ (mention.shift bytes).offset)) ∘
      Mention.shift bytes = fun m => decide (m.offset ≤ mention.offset) := by
    funext m
    simp [Mention.shift]
  simp only [insertMention, List.takeWhile_map, List.dropWhile_map, hpred, List.map_append,
    List.map_cons]

theorem insertMention_perm (mention : Mention) (mentions : List Mention) :
    (insertMention mention mentions).Perm (mention :: mentions) := by
  refine List.perm_middle.trans ?_
  rw [List.takeWhile_append_dropWhile]

theorem mem_insertMention {mention m : Mention} {mentions : List Mention} :
    m ∈ insertMention mention mentions ↔ m = mention ∨ m ∈ mentions := by
  rw [(insertMention_perm mention mentions).mem_iff, List.mem_cons]

private theorem looseBounds_append {front back : List Found}
    (h : ∀ f ∈ front, ∀ g ∈ back, f.stop ≤ g.start) :
    looseBounds (front ++ back) = looseBounds front ++ looseBounds back := by
  have hapart : ∀ f ∈ front, ∀ g ∈ back, f.overlaps g = false ∧ g.overlaps f = false := by
    intro f hf g hg
    have hle := h f hf g hg
    exact ⟨Found.overlaps_eq_false_iff.2 (.inl hle), Found.overlaps_eq_false_iff.2 (.inr hle)⟩
  unfold looseBounds
  rw [List.filter_append]
  congr 1
  · apply List.filter_congr
    intro f hf
    have hback : (back.any fun claim => claim.mention?.isSome && f.overlaps claim) = false := by
      rw [List.any_eq_false]
      intro g hg
      simp [(hapart f hf g hg).1]
    rw [List.any_append, hback, Bool.or_false]
  · apply List.filter_congr
    intro g hg
    have hfront : (front.any fun claim => claim.mention?.isSome && g.overlaps claim) = false := by
      rw [List.any_eq_false]
      intro f hf
      simp [(hapart f hf g hg).2]
    rw [List.any_append, hfront, Bool.false_or]

private theorem looseBounds_shift (bytes : Nat) (found : List Found) :
    looseBounds (found.map (Found.shift bytes)) = (looseBounds found).map (Found.shift bytes) := by
  have hclaims (f : Found) :
      (fun claim => claim.mention?.isSome && (f.shift bytes).overlaps claim) ∘ Found.shift bytes =
        fun claim => claim.mention?.isSome && f.overlaps claim := by
    funext claim
    simp only [Function.comp_apply, Found.overlaps_shift, Found.mention?_shift, Option.isSome_map]
  unfold looseBounds
  rw [List.filter_map]
  congr 1
  apply List.filter_congr
  intro f _
  simp only [Function.comp_apply, List.any_map, hclaims]
  rfl

private theorem boundsMention?_shift (bytes : Nat) (bounds : List Found) :
    boundsMention? (bounds.map (Found.shift bytes)) =
      (boundsMention? bounds).map (Mention.shift bytes) := by
  have hstart : Found.startBound? ∘ Found.shift bytes = Found.startBound? := rfl
  have hfinish : Found.finishBound? ∘ Found.shift bytes = Found.finishBound? := rfl
  unfold boundsMention?
  rw [List.head?_map, List.findSome?_map, List.findSome?_map, hstart, hfinish]
  cases bounds.head? <;> rfl

private theorem boundsMention?_eq_none {bounds : List Found} :
    boundsMention? bounds = none ↔ bounds = [] := by
  simp [boundsMention?]

theorem boundsMention?_offset {bounds : List Found} {m : Mention}
    (h : boundsMention? bounds = some m) :
    (∃ f ∈ bounds, m.offset = f.start) ∧ m.origin = .bounds ∧ m.operation.kind = .trim := by
  obtain ⟨f, hf, rfl⟩ := Option.map_eq_some_iff.1 h
  exact ⟨⟨f, List.mem_of_head? hf, rfl⟩, rfl, rfl⟩

theorem assembleFindings_mentions (found : List Found) :
    (assembleFindings found).mentions =
      ((boundsMention? (looseBounds found)).map fun mention =>
        insertMention mention (found.filterMap Found.mention?)).getD
          (found.filterMap Found.mention?) := by
  unfold assembleFindings
  cases boundsMention? (looseBounds found) <;> rfl

theorem mem_assembleFindings {found : List Found} {m : Mention} :
    m ∈ (assembleFindings found).mentions ↔
      (∃ f ∈ found, f.mention? = some m) ∨ boundsMention? (looseBounds found) = some m := by
  rw [assembleFindings_mentions]
  cases hb : boundsMention? (looseBounds found) with
  | none => simp
  | some mention =>
    simp only [Option.map_some, Option.getD_some, mem_insertMention, List.mem_filterMap,
      Option.some.injEq]
    rw [or_comm, eq_comm]

private theorem hasBounds_assembleFindings (found : List Found) :
    (assembleFindings found).hasBounds = false ↔ looseBounds found = [] := by
  simp only [Extraction.hasBounds, List.any_eq_false, decide_eq_true_eq]
  constructor
  · intro h
    rw [← boundsMention?_eq_none, Option.eq_none_iff_forall_ne_some]
    intro m hm
    exact h m (mem_assembleFindings.2 (Or.inr hm)) (boundsMention?_offset hm).2.1
  · intro h m hm ho
    rcases mem_assembleFindings.1 hm with ⟨f, _, hf⟩ | hb
    · rw [(Found.mention?_eq_some hf).2] at ho
      cases ho
    · rw [boundsMention?_eq_none.2 h] at hb
      cases hb

theorem output_assembleFindings (found : List Found) :
    (assembleFindings found).output = .gif ↔ ∃ f ∈ found, f.finding = .output .gif := by
  unfold assembleFindings
  dsimp only
  split
  · simp_all
  · simp_all

private theorem assembleFindings_shift (bytes : Nat) (found : List Found) :
    (assembleFindings (found.map (Found.shift bytes))).mentions =
      (assembleFindings found).mentions.map (Mention.shift bytes) := by
  have hops : (found.map (Found.shift bytes)).filterMap Found.mention? =
      (found.filterMap Found.mention?).map (Mention.shift bytes) := by
    rw [List.filterMap_map, List.map_filterMap]
    congr 1
    funext f
    exact f.mention?_shift bytes
  rw [assembleFindings_mentions, assembleFindings_mentions, looseBounds_shift,
    boundsMention?_shift, hops]
  cases boundsMention? (looseBounds found) with
  | none => rfl
  | some mention => exact insertMention_shift bytes mention _

private theorem assembleFindings_append {front back : List Found}
    (hpos : ∀ f ∈ front, f.start < f.stop) (h : ∀ f ∈ front, ∀ g ∈ back, f.stop ≤ g.start)
    (hone : looseBounds front = [] ∨ looseBounds back = []) :
    (assembleFindings (front ++ back)).mentions =
      (assembleFindings front).mentions ++ (assembleFindings back).mentions := by
  have hloose {found : List Found} {m : Mention} (hm : boundsMention? (looseBounds found) = some m) :
      ∃ f ∈ found, m.offset = f.start := by
    obtain ⟨⟨f, hf, ho⟩, _⟩ := boundsMention?_offset hm
    exact ⟨f, (List.mem_filter.1 hf).1, ho⟩
  have hop {found : List Found} {m : Mention} (hm : m ∈ found.filterMap Found.mention?) :
      ∃ f ∈ found, m.offset = f.start := by
    obtain ⟨f, hf, ho⟩ := List.mem_filterMap.1 hm
    exact ⟨f, hf, (Found.mention?_eq_some ho).1⟩
  simp only [assembleFindings_mentions]
  rw [looseBounds_append h, List.filterMap_append]
  rcases hone with hf | hb
  · rw [hf, List.nil_append]
    cases hm : boundsMention? (looseBounds back) with
    | none => simp [boundsMention?]
    | some mention =>
      obtain ⟨g, hg, hgo⟩ := hloose hm
      apply insertMention_append_right
      intro m hmem
      obtain ⟨f, hfm, hfo⟩ := hop hmem
      have hlt := hpos f hfm
      have hle := h f hfm g hg
      omega
  · rw [hb, List.append_nil]
    cases hm : boundsMention? (looseBounds front) with
    | none => simp [boundsMention?]
    | some mention =>
      obtain ⟨f, hfm, hfo⟩ := hloose hm
      apply insertMention_append_left
      intro m hmem
      obtain ⟨g, hg, hgo⟩ := hop hmem
      have hlt := hpos f hfm
      have hle := h f hfm g hg
      omega

private theorem findings_append_comma (a b : String) :
    findings (a ++ "," ++ b).toList =
      findings a.toList ++ (findings b.toList).map (Found.shift (a.utf8ByteSize + 1)) := by
  rw [← utf8Length_toList, ← findings_comma, String.toList_append, String.toList_append,
    List.append_assoc]
  rfl

private theorem mentions_comma (a b : String)
    (hone : (parse a).hasBounds = false ∨ (parse b).hasBounds = false) :
    (parse (a ++ "," ++ b)).mentions =
      (parse a).mentions ++ (parse b).mentions.map (Mention.shift (a.utf8ByteSize + 1)) := by
  unfold parse at *
  rw [hasBounds_assembleFindings, hasBounds_assembleFindings] at hone
  rw [findings_append_comma, ← assembleFindings_shift]
  apply assembleFindings_append
  · intro f hf
    exact (findings_bounds hf).1
  · intro f hf g hg
    obtain ⟨g, _, rfl⟩ := List.mem_map.1 hg
    have hle := (findings_bounds hf).2
    rw [utf8Length_toList] at hle
    simp only [Found.shift]
    omega
  · rw [looseBounds_shift, List.map_eq_nil_iff]
    exact hone

private theorem output_comma (a b : String) :
    (parse (a ++ "," ++ b)).output = .gif ↔ (parse a).output = .gif ∨ (parse b).output = .gif := by
  unfold parse
  rw [findings_append_comma]
  simp only [output_assembleFindings, List.mem_append, List.mem_map]
  constructor
  · rintro ⟨f, hf | ⟨g, hg, rfl⟩, hgif⟩
    · exact Or.inl ⟨f, hf, hgif⟩
    · exact Or.inr ⟨g, hg, hgif⟩
  · rintro (⟨f, hf, hgif⟩ | ⟨g, hg, hgif⟩)
    · exact ⟨f, Or.inl hf, hgif⟩
    · exact ⟨_, Or.inr ⟨g, hg, rfl⟩, hgif⟩

private theorem countP_bounds_assembleFindings (found : List Found) :
    (assembleFindings found).mentions.countP (fun m => m.origin = .bounds) =
      if looseBounds found = [] then 0 else 1 := by
  have hops : (found.filterMap Found.mention?).countP (fun m => m.origin = .bounds) = 0 := by
    rw [List.countP_eq_zero]
    intro m hm
    obtain ⟨f, _, hf⟩ := List.mem_filterMap.1 hm
    simp [(Found.mention?_eq_some hf).2]
  rw [assembleFindings_mentions]
  split_ifs with hloose
  · rw [boundsMention?_eq_none.2 hloose]
    exact hops
  · obtain ⟨mention, hmention⟩ := Option.ne_none_iff_exists'.1 (mt boundsMention?_eq_none.1 hloose)
    have hperm := insertMention_perm mention (found.filterMap Found.mention?)
    rw [hmention, Option.map_some, Option.getD_some, hperm.countP_eq, List.countP_cons, hops]
    simp [(boundsMention?_offset hmention).2.1]

/-- Two prompts joined by a comma are read one after the other, unless loose bounds of a window
stand in both: those would be one mention. The format is a GIF if either prompt asks for one. -/
theorem parse_append_comma (a b : String) :
    ((parse (a ++ "," ++ b)).mentions =
        (parse a).mentions ++ (parse b).mentions.map (Mention.shift (a.utf8ByteSize + 1)) ↔
      ¬((parse a).hasBounds ∧ (parse b).hasBounds)) ∧
    ((parse (a ++ "," ++ b)).output = .gif ↔
      (parse a).output = .gif ∨ (parse b).output = .gif) := by
  refine ⟨⟨?_, ?_⟩, output_comma a b⟩
  · rintro hmentions ⟨ha, hb⟩
    have hcount := congrArg (List.countP fun m => decide (m.origin = .bounds)) hmentions
    have hshift : (fun m => decide (m.origin = .bounds)) ∘ Mention.shift (a.utf8ByteSize + 1) =
        fun m => decide (m.origin = .bounds) := rfl
    unfold parse at ha hb hcount
    rw [List.countP_append, List.countP_map, hshift] at hcount
    simp only [countP_bounds_assembleFindings] at hcount
    rw [← Bool.not_eq_false, hasBounds_assembleFindings] at ha hb
    simp only [ha, hb, if_false] at hcount
    split_ifs at hcount
    omega
  · intro hone
    apply mentions_comma
    simpa only [not_and_or, Bool.not_eq_true] using hone

def operations (prompt : String) : List Operation := (parse prompt).mentions.map Mention.operation

/-- No kind of operation is named in both of two prompts. -/
def KindsApart (a b : String) : Prop :=
  ∀ m ∈ (parse a).mentions, ∀ n ∈ (parse b).mentions, m.operation.kind ≠ n.operation.kind

instance (a b : String) : Decidable (KindsApart a b) :=
  inferInstanceAs (Decidable (∀ m ∈ (parse a).mentions, ∀ n ∈ (parse b).mentions, _))

theorem KindsApart.symm {a b : String} (h : KindsApart a b) : KindsApart b a :=
  fun m hm n hn => (h n hn m hm).symm

private theorem exists_trim_of_hasBounds {prompt : String} (h : (parse prompt).hasBounds) :
    ∃ op ∈ operations prompt, op.kind = .trim := by
  obtain ⟨m, hm, ho⟩ := List.any_eq_true.1 h
  refine ⟨m.operation, List.mem_map_of_mem hm, ?_⟩
  rcases mem_assembleFindings.1 hm with ⟨f, _, hf⟩ | hb
  · rw [decide_eq_true_eq, (Found.mention?_eq_some hf).2] at ho
    cases ho
  · exact (boundsMention?_offset hb).2.2

private theorem parse_clauses {clauses : List String} (hapart : clauses.Pairwise KindsApart) :
    operations (",".intercalate clauses) = clauses.flatMap operations ∧
      ((parse (",".intercalate clauses)).output = .gif ↔
        ∃ c ∈ clauses, (parse c).output = .gif) := by
  induction clauses with
  | nil =>
    rw [String.intercalate_nil]
    refine ⟨by decide +kernel, ?_⟩
    have hout : (parse "").output = .mp4 := by decide +kernel
    simp [hout]
  | cons c rest ih =>
    cases rest with
    | nil => simp
    | cons d rest =>
      obtain ⟨hhead, htail⟩ := List.pairwise_cons.1 hapart
      obtain ⟨hops, hout⟩ := ih htail
      -- Loose bounds on both sides would be two trims in different clauses.
      have hone : (parse c).hasBounds = false ∨
          (parse (",".intercalate (d :: rest))).hasBounds = false := by
        by_contra hboth
        simp only [not_or, Bool.not_eq_false] at hboth
        obtain ⟨op, hop, hk⟩ := exists_trim_of_hasBounds hboth.1
        obtain ⟨op', hop', hk'⟩ := exists_trim_of_hasBounds hboth.2
        rw [hops] at hop'
        obtain ⟨other, hother, hop'⟩ := List.mem_flatMap.1 hop'
        obtain ⟨m, hm, rfl⟩ := List.mem_map.1 hop
        obtain ⟨n, hn, rfl⟩ := List.mem_map.1 hop'
        exact hhead other hother m hm n hn (hk.trans hk'.symm)
      have hmentions := mentions_comma c _ hone
      have hgif := output_comma c (",".intercalate (d :: rest))
      rw [String.intercalate_cons_cons]
      constructor
      · rw [List.flatMap_cons, ← hops]
        simp only [operations, hmentions, List.map_append, List.map_map]
        rfl
      · rw [hgif, hout]
        simp

end Prompt

private theorem flatMap_eq_of_perm {α β : Type} {f : α → List β} {xs ys : List α}
    (hp : xs.Perm ys) (h : xs.Pairwise fun a b => f a = [] ∨ f b = []) :
    xs.flatMap f = ys.flatMap f := by
  induction hp with
  | nil => rfl
  | cons x _ ih => rw [List.flatMap_cons, List.flatMap_cons, ih (List.pairwise_cons.1 h).2]
  | swap x y l =>
    rcases (List.pairwise_cons.1 h).1 x List.mem_cons_self with hy | hx
    · simp [hy]
    · simp [hx]
  | trans p _ ih ih' =>
    rw [ih h, ih' ((p.pairwise_iff Or.symm).1 h)]

/-- Clauses that name different kinds of operation make the same plan in every order, and so the
same invocation. -/
theorem Plan.ofPrompt_clauses_perm {clauses reordered : List String}
    (hperm : clauses.Perm reordered) (hapart : clauses.Pairwise Prompt.KindsApart)
    (policy : DuplicatePolicy) :
    Plan.ofPrompt (",".intercalate clauses) policy =
        Plan.ofPrompt (",".intercalate reordered) policy ∧
      ∀ input output settings,
        (Plan.ofPrompt (",".intercalate clauses) policy).compile input output settings =
          (Plan.ofPrompt (",".intercalate reordered) policy).compile input output settings := by
  obtain ⟨hops, hout⟩ := Prompt.parse_clauses hapart
  obtain ⟨hops', hout'⟩ := Prompt.parse_clauses ((hperm.pairwise_iff Prompt.KindsApart.symm).1 hapart)
  have houtput : (Prompt.parse (",".intercalate clauses)).output =
      (Prompt.parse (",".intercalate reordered)).output := by
    simp only [hperm.mem_iff, ← hout'] at hout
    cases ha : (Prompt.parse (",".intercalate clauses)).output <;>
      cases hb : (Prompt.parse (",".intercalate reordered)).output <;> simp_all
  have hchosen (kind : Kind) : (Prompt.parse (",".intercalate clauses)).chosen? policy kind =
      (Prompt.parse (",".intercalate reordered)).chosen? policy kind := by
    unfold Prompt.operations at hops hops'
    unfold Extraction.chosen?
    rw [hops, hops', List.filter_flatMap, List.filter_flatMap]
    congr 1
    refine flatMap_eq_of_perm hperm (hapart.imp ?_)
    intro a b hab
    by_contra hboth
    obtain ⟨ha, hb⟩ := not_or.1 hboth
    obtain ⟨op, hop⟩ := List.exists_mem_of_ne_nil _ ha
    obtain ⟨op', hop'⟩ := List.exists_mem_of_ne_nil _ hb
    simp only [List.mem_filter, Bool.and_eq_true, decide_eq_true_eq] at hop hop'
    obtain ⟨m, hm, rfl⟩ := List.mem_map.1 hop.1
    obtain ⟨n, hn, rfl⟩ := List.mem_map.1 hop'.1
    exact hab m hm n hn (hop.2.2.trans hop'.2.2.symm)
  have hplan := Extraction.plan_congr policy houtput hchosen
  exact ⟨hplan, fun _ _ _ => by rw [Plan.ofPrompt, hplan, Plan.ofPrompt]⟩

/-- A loose bound, a speed, a silent track and a format, each in a clause of its own. -/
theorem Plan.ofPrompt_clauses_perm_rotated :
    let clauses := ["Skip the FIRST 1:30", " slow it down to 0.5x", "no sound", "gif"]
    let reordered := ["gif", "no sound", "Skip the FIRST 1:30", " slow it down to 0.5x"]
    clauses.Perm reordered ∧ clauses.Pairwise Prompt.KindsApart ∧
      Plan.ofPrompt (",".intercalate clauses) .last =
        Plan.ofPrompt (",".intercalate reordered) .last := by
  intro clauses reordered
  have hperm : clauses.Perm reordered := by decide +kernel
  have hapart : clauses.Pairwise Prompt.KindsApart := by decide +kernel
  exact ⟨hperm, hapart, (Plan.ofPrompt_clauses_perm hperm hapart .last).1⟩

end VideoEdit

import VideoEdit.Proofs.Prompt.Clauses
/-!
# What the mentions account for

A prompt is read without loss: its mentions are one operation for each match that names one, in the
order of the text, and one window for the bounds that share no text with those, if there are any.
-/
namespace VideoEdit

/-- The rules whose phrases name an operation. -/
def Rule.ofOperations : List Rule := [trimRange, grayscale, speed, mute, brightness, crop]

/-- The rules whose phrases name one bound of a window. -/
def Rule.ofBounds : List Rule := [trimFirst, trimStartAt, trimEnd]

/-- The matches of a rule that say something, each with what it says. -/
def Rule.readings (text : List Char) (rule : Rule) : List Found :=
  (rule.shape.search text).flatMap fun m =>
    (rule.finding? m).toList.map fun finding => ⟨m.start, m.stop, rule, finding⟩

def Rule.kind? : Rule → Option Kind
  | trimRange => some .trim
  | grayscale => some .grayscale
  | speed => some .speed
  | mute => some .mute
  | brightness => some .brightness
  | crop => some .crop
  | trimFirst | trimStartAt | trimEnd | gif => none

/-- A rule gives findings of one sort: operations of one kind, bounds of a window, or the format. -/
theorem Rule.finding?_sort {rule : Rule} {m : Match Part} {finding : Finding}
    (h : rule.finding? m = some finding) :
    (rule ∈ ofOperations ∧
        ∃ operation, finding = .operation operation ∧ rule.kind? = some operation.kind) ∨
      (rule ∈ ofBounds ∧ ∃ seconds, finding = .start seconds ∨ finding = .finish seconds) ∨
      (rule = gif ∧ ∃ format, finding = .output format) := by
  cases rule with
  | trimRange =>
    simp only [finding?, Finding.ofTrimRange?, Option.bind_eq_bind, Option.bind_eq_some_iff,
      Option.pure_def, Option.some.injEq] at h
    obtain ⟨_, _, _, _, _, _, _, _, rfl⟩ := h
    exact .inl ⟨by decide, _, rfl, rfl⟩
  | trimFirst | trimStartAt =>
    simp only [finding?, Finding.ofStart?, Option.bind_eq_bind, Option.bind_eq_some_iff,
      Option.pure_def, Option.some.injEq] at h
    obtain ⟨_, _, _, _, rfl⟩ := h
    exact .inr (.inl ⟨by decide, _, .inl rfl⟩)
  | trimEnd =>
    simp only [finding?, Finding.ofFinish?, Option.bind_eq_bind, Option.bind_eq_some_iff,
      Option.pure_def, Option.some.injEq] at h
    obtain ⟨_, _, _, _, rfl⟩ := h
    exact .inr (.inl ⟨by decide, _, .inr rfl⟩)
  | speed =>
    obtain ⟨_, _, rfl⟩ := Option.map_eq_some_iff.1 h
    exact .inl ⟨by decide, _, rfl, rfl⟩
  | brightness =>
    simp only [finding?, Finding.ofBrightness?, Option.bind_eq_bind, Option.pure_def] at h
    split at h <;>
      simp only [Option.bind_eq_some_iff, Option.some.injEq] at h
    · obtain ⟨_, _, _, _, rfl⟩ := h
      exact .inl ⟨by decide, _, rfl, rfl⟩
    · obtain ⟨_, _, _, _, rfl⟩ := h
      exact .inl ⟨by decide, _, rfl, rfl⟩
  | grayscale | mute | crop =>
    obtain rfl := Option.some.inj h
    exact .inl ⟨by decide, _, rfl, rfl⟩
  | gif =>
    obtain rfl := Option.some.inj h
    exact .inr (.inr ⟨rfl, _, rfl⟩)

theorem Rule.kind?_of_finding? {rule : Rule} {m : Match Part} {op : Operation}
    (h : rule.finding? m = some (.operation op)) : rule.kind? = some op.kind := by
  rcases finding?_sort h with ⟨-, _, hsame, hkind⟩ | ⟨-, _, hs | hs⟩ | ⟨-, _, hs⟩
  · cases hsame
    exact hkind
  · cases hs
  · cases hs
  · cases hs

theorem Rule.eq_of_kind? {rule rule' : Rule} {kind : Kind} (h : rule.kind? = some kind)
    (h' : rule'.kind? = some kind) : rule = rule' := by
  cases kind <;> cases rule <;> cases h <;> cases rule' <;> cases h' <;> rfl

private theorem Rule.not_mem_ofOperations : ∀ rule ∈ ofBounds, rule ∉ ofOperations := by decide

namespace Prompt

/-- What the claims and the loose bounds of a text are: its matches that name an operation, and
those that name a bound and share no text with a claim, each in the order of the text. -/
structure Readings (text : List Char) (claims bounds : List Found) : Prop where
  claims_perm : claims.Perm (Rule.ofOperations.flatMap (Rule.readings text))
  claims_ordered : claims.Pairwise Found.Before
  bounds_perm : bounds.Perm ((Rule.ofBounds.flatMap (Rule.readings text)).filter fun bound =>
    ∀ claim ∈ claims, bound.stop ≤ claim.start ∨ claim.stop ≤ bound.start)
  bounds_ordered : bounds.Pairwise Found.Before

/-- What it means that mentions account for a text: they are one for each claim and one for all the
loose bounds together, by place. -/
structure Accounts (text : List Char) (claims bounds : List Found) (mentions : List Mention) :
    Prop extends Readings text claims bounds where
  phrases : (mentions.filter fun m => m.origin ≠ .bounds).map
      (fun m => (m.offset, m.origin, Finding.operation m.operation)) =
    claims.map fun claim => (claim.start, .phrase claim.rule, claim.finding)
  window : (mentions.filter fun m => m.origin = .bounds) =
    bounds.head?.toList.map fun first => ⟨first.start, .bounds, .trim
      ((bounds.filterMap Found.startBound?).head?.getD 0)
      (bounds.filterMap Found.finishBound?).head?⟩
  sorted : mentions.Pairwise fun m n => m.offset ≤ n.offset
  increasing : mentions.Pairwise fun m n => m.origin = n.origin → m.offset < n.offset
  apart : mentions.Pairwise fun m n => m.origin = .bounds ∨ n.origin = .bounds →
    m.offset ≠ n.offset

def claims (found : List Found) : List Found := found.filter fun f => f.mention?.isSome

theorem isSome_mention?_iff {text : List Char} {rule : Rule} {f : Found}
    (h : f ∈ findingsOf text rule) : f.mention?.isSome ↔ rule ∈ Rule.ofOperations := by
  obtain ⟨m, -, hf, -⟩ := mem_findingsOf_match h
  rcases Rule.finding?_sort hf with ⟨hr, op, ho⟩ | ⟨hr, s, ho | ho⟩ | ⟨rfl, format, ho⟩
  · simp [Found.mention?, ho, hr]
  · simp [Found.mention?, ho, Rule.not_mem_ofOperations rule hr]
  · simp [Found.mention?, ho, Rule.not_mem_ofOperations rule hr]
  · simp [Found.mention?, ho, Rule.ofOperations]

private theorem isBound_iff {text : List Char} {rule : Rule} {f : Found}
    (h : f ∈ findingsOf text rule) : f.isBound ↔ rule ∈ Rule.ofBounds := by
  obtain ⟨m, -, hf, -⟩ := mem_findingsOf_match h
  rcases Rule.finding?_sort hf with ⟨hr, op, ho⟩ | ⟨hr, s, ho | ho⟩ | ⟨rfl, format, ho⟩
  · have hnot : rule ∉ Rule.ofBounds := fun hb => Rule.not_mem_ofOperations rule hb hr
    simp [Found.isBound, Found.startBound?, Found.finishBound?, ho, hnot]
  · simp [Found.isBound, Found.startBound?, Found.finishBound?, ho, hr]
  · simp [Found.isBound, Found.startBound?, Found.finishBound?, ho, hr]
  · simp [Found.isBound, Found.startBound?, Found.finishBound?, ho, Rule.ofBounds]

private theorem filter_findings_perm {text : List Char} {p : Found → Bool} {rules : List Rule}
    (hall : Rule.all.filter (· ∈ rules) = rules)
    (h : ∀ rule, ∀ f ∈ findingsOf text rule, p f ↔ rule ∈ rules) :
    ((findings text).filter p).Perm (rules.flatMap (findingsOf text)) := by
  have hfilter (some : List Rule) : some.flatMap (fun rule => (findingsOf text rule).filter p) =
      (some.filter (· ∈ rules)).flatMap (findingsOf text) := by
    induction some with
    | nil => rfl
    | cons rule some ih =>
      rw [List.flatMap_cons, ih]
      by_cases hr : rule ∈ rules
      · have hself : (findingsOf text rule).filter p = findingsOf text rule :=
          List.filter_eq_self.2 fun f hf => (h rule f hf).2 hr
        simp [hr, hself]
      · have hnil : (findingsOf text rule).filter p = [] :=
          List.filter_eq_nil_iff.2 fun f hf => mt (h rule f hf).1 hr
        simp [hr, hnil]
  have hperm := (findings_perm text).filter p
  rwa [List.filter_flatMap, hfilter, hall] at hperm

private theorem looseBounds_eq_filter (found : List Found) :
    looseBounds found = (found.filter Found.isBound).filter fun bound =>
      ∀ claim ∈ claims found, bound.stop ≤ claim.start ∨ claim.stop ≤ bound.start := by
  have happart (bound : Found) :
      (!found.any fun claim => claim.mention?.isSome && bound.overlaps claim) =
        decide (∀ claim ∈ claims found,
          bound.stop ≤ claim.start ∨ claim.stop ≤ bound.start) := by
    rw [Bool.eq_iff_iff, Bool.not_eq_true', List.any_eq_false, decide_eq_true_iff]
    simp only [claims, List.mem_filter, Bool.and_eq_true, not_and, Bool.not_eq_true,
      Found.overlaps_eq_false_iff, and_imp]
  rw [List.filter_filter, looseBounds]
  refine List.filter_congr fun bound _ => ?_
  rw [happart, Bool.and_comm]

theorem mem_looseBounds {found : List Found} {bound : Found} :
    bound ∈ looseBounds found ↔ bound ∈ found ∧ bound.isBound ∧
      ∀ claim ∈ claims found, bound.stop ≤ claim.start ∨ claim.stop ≤ bound.start := by
  rw [looseBounds_eq_filter, List.mem_filter, List.mem_filter, decide_eq_true_iff, and_assoc]

private theorem findingsOf_eq_readings (text : List Char) :
    findingsOf text = Rule.readings text := by
  funext rule
  rw [findingsOf, Rule.readings, List.filterMap_eq_flatMap_toList]
  congr 1
  funext m
  cases rule.finding? m <;> rfl

/-- The parser finds the claims and the loose bounds of a text. -/
theorem readings_findings (text : List Char) :
    Readings text (claims (findings text)) (looseBounds (findings text)) := by
  refine ⟨?claims, (findings_ordered text).filter _, ?bounds, (findings_ordered text).filter _⟩
  case claims =>
    rw [← findingsOf_eq_readings]
    exact filter_findings_perm (by decide) fun _ _ => isSome_mention?_iff
  case bounds =>
    rw [← findingsOf_eq_readings, looseBounds_eq_filter]
    exact (filter_findings_perm (by decide) fun _ _ => isBound_iff).filter _

/-- A text has one list of claims and one of loose bounds. -/
theorem Readings.unique {text : List Char} {claims bounds claims' bounds' : List Found}
    (h : Readings text claims bounds) (h' : Readings text claims' bounds') :
    claims = claims' ∧ bounds = bounds' := by
  obtain rfl : claims = claims' := Found.eq_of_perm (h.claims_perm.trans h'.claims_perm.symm)
    h.claims_ordered h'.claims_ordered
  exact ⟨rfl, Found.eq_of_perm (h.bounds_perm.trans h'.bounds_perm.symm) h.bounds_ordered
    h'.bounds_ordered⟩

private theorem start_ne_of_mem_looseBounds {text : List Char} {bound claim : Found}
    (hbound : bound ∈ looseBounds (findings text)) (hclaim : claim ∈ claims (findings text)) :
    bound.start ≠ claim.start := by
  obtain ⟨hmem, -, happart⟩ := mem_looseBounds.1 hbound
  have hdisjoint := happart claim hclaim
  have hpos := (findings_bounds hmem).1
  have hpos' := (findings_bounds (List.mem_filter.1 hclaim).1).1
  omega

section Insertion
variable {mention : Mention} {mentions : List Mention}

theorem filter_insertMention_of_not {p : Mention → Bool} (h : p mention = false) :
    (insertMention mention mentions).filter p = mentions.filter p := by
  rw [insertMention, List.filter_append, List.filter_cons_of_neg (by simp [h]),
    ← List.filter_append, List.takeWhile_append_dropWhile]

theorem filter_insertMention_of_pos {p : Mention → Bool} (h : p mention)
    (hnone : mentions.filter p = []) : (insertMention mention mentions).filter p = [mention] := by
  have hperm := (insertMention_perm mention mentions).filter p
  rw [List.filter_cons_of_pos h, hnone] at hperm
  exact List.perm_singleton.1 hperm

private theorem insertMention_cons (mention m : Mention) (mentions : List Mention) :
    insertMention mention (m :: mentions) =
      if m.offset ≤ mention.offset then m :: insertMention mention mentions
      else mention :: m :: mentions := by
  by_cases hm : m.offset ≤ mention.offset
  · simp [insertMention, hm]
  · simp [insertMention, hm]

private theorem pairwise_insertMention {R : Mention → Mention → Prop} (h : mentions.Pairwise R)
    (hsorted : mentions.Pairwise fun m n => m.offset ≤ n.offset)
    (hbefore : ∀ m ∈ mentions, m.offset ≤ mention.offset → R m mention)
    (hafter : ∀ m ∈ mentions, mention.offset < m.offset → R mention m) :
    (insertMention mention mentions).Pairwise R := by
  induction mentions with
  | nil => exact List.pairwise_singleton R mention
  | cons m mentions ih =>
    obtain ⟨hhead, htail⟩ := List.pairwise_cons.1 h
    obtain ⟨hle, hsorted⟩ := List.pairwise_cons.1 hsorted
    rw [insertMention_cons]
    split_ifs with hm
    · refine .cons ?_ (ih htail hsorted ?_ ?_)
      · intro n hn
        rcases mem_insertMention.1 hn with rfl | hn
        · exact hbefore m List.mem_cons_self hm
        · exact hhead n hn
      · exact fun n hn => hbefore n (List.mem_cons_of_mem m hn)
      · exact fun n hn => hafter n (List.mem_cons_of_mem m hn)
    · refine .cons ?_ h
      intro n hn
      apply hafter n hn
      rcases List.mem_cons.1 hn with rfl | hn
      · omega
      · have hmn := hle n hn
        omega

end Insertion

private def phrases (text : List Char) : List Mention := (findings text).filterMap Found.mention?

private theorem mem_phrases {text : List Char} {m : Mention} (h : m ∈ phrases text) :
    ∃ claim ∈ claims (findings text), m.offset = claim.start ∧ m.origin = .phrase claim.rule := by
  obtain ⟨f, hf, hm⟩ := List.mem_filterMap.1 h
  exact ⟨f, List.mem_filter.2 ⟨hf, by simp [hm]⟩, Found.mention?_eq_some hm⟩

/-- The order of mentions: by place, those of one origin apart, and bounds apart from all others. -/
def InOrder (m n : Mention) : Prop :=
  m.offset ≤ n.offset ∧ (m.origin = n.origin → m.offset < n.offset) ∧
    (m.origin = .bounds ∨ n.origin = .bounds → m.offset ≠ n.offset)

private theorem phrases_inOrder (text : List Char) : (phrases text).Pairwise InOrder := by
  refine (findings_ordered text).filterMap _ ?_
  intro f g hfg m hm n hn
  obtain ⟨hmo, hmr⟩ := Found.mention?_eq_some hm
  obtain ⟨hno, hnr⟩ := Found.mention?_eq_some hn
  unfold Found.Before at hfg
  refine ⟨by omega, ?_, by simp [hmr, hnr]⟩
  intro horigin
  rw [hmr, hnr, Origin.phrase.injEq] at horigin
  rw [horigin] at hfg
  omega

private theorem insertMention_inOrder {text : List Char} {window : Mention}
    (h : boundsMention? (looseBounds (findings text)) = some window) :
    (insertMention window (phrases text)).Pairwise InOrder := by
  obtain ⟨⟨bound, hbound, hoffset⟩, horigin, -⟩ := boundsMention?_offset h
  have hne : ∀ m ∈ phrases text, m.origin ≠ .bounds ∧ window.offset ≠ m.offset := by
    intro m hm
    obtain ⟨claim, hclaim, hmo, hmr⟩ := mem_phrases hm
    rw [hmo, hmr, hoffset]
    exact ⟨by simp, start_ne_of_mem_looseBounds hbound hclaim⟩
  apply pairwise_insertMention (phrases_inOrder text) ((phrases_inOrder text).imp fun h => h.1)
  · intro m hm hle
    have hm' := hne m hm
    exact ⟨hle, fun heq => absurd (heq.trans horigin) hm'.1, fun _ => hm'.2.symm⟩
  · intro m hm hlt
    have hm' := hne m hm
    exact ⟨Nat.le_of_lt hlt, fun _ => hlt, fun _ => hm'.2⟩

theorem mentions_inOrder (prompt : String) : (parse prompt).mentions.Pairwise InOrder := by
  have hmentions := assembleFindings_mentions (findings prompt.toList)
  rw [parse, hmentions]
  cases hwindow : boundsMention? (looseBounds (findings prompt.toList)) with
  | none => exact phrases_inOrder prompt.toList
  | some window => exact insertMention_inOrder hwindow

theorem finding_of_mention? {f : Found} {m : Mention} (h : f.mention? = some m) :
    f.finding = .operation m.operation := by
  unfold Found.mention? at h
  split at h
  · next operation hfinding =>
    cases h
    exact hfinding
  · cases h

/-- The mentions of phrases are the matches that name an operation. -/
theorem mem_mentions_phrase_iff {prompt : String} {offset : Nat} {rule : Rule} {op : Operation} :
    ⟨offset, .phrase rule, op⟩ ∈ (parse prompt).mentions ↔
      ∃ m ∈ rule.shape.search prompt.toList, m.start = offset ∧
        rule.finding? m = some (.operation op) := by
  rw [parse, mem_assembleFindings]
  constructor
  · rintro (⟨f, hf, hm⟩ | hm)
    · obtain ⟨hoffset, horigin⟩ := Found.mention?_eq_some hm
      obtain rfl : rule = f.rule := Origin.phrase.inj horigin
      obtain ⟨m, hmem, hfinding, -, hstart, -⟩ := mem_findingsOf_match (mem_findings.1 hf)
      refine ⟨m, hmem, hstart.symm.trans hoffset.symm, ?_⟩
      rw [hfinding, finding_of_mention? hm]
    · cases (boundsMention?_offset hm).2.1
  · rintro ⟨m, hm, rfl, hfinding⟩
    refine Or.inl ⟨⟨m.start, m.stop, rule, .operation op⟩, ?_, rfl⟩
    rw [mem_findings]
    exact List.mem_filterMap.2 ⟨m, hm, by rw [hfinding, Option.map_some]⟩

private theorem map_phrases (found : List Found) :
    (found.filterMap Found.mention?).map
        (fun m => (m.offset, m.origin, Finding.operation m.operation)) =
      (claims found).map fun claim => (claim.start, .phrase claim.rule, claim.finding) := by
  induction found with
  | nil => rfl
  | cons f found ih =>
    unfold claims at ih ⊢
    cases hm : f.mention? with
    | none =>
      rw [List.filterMap_cons_none hm, List.filter_cons_of_neg (by simp [hm])]
      exact ih
    | some m =>
      obtain ⟨ho, hr⟩ := Found.mention?_eq_some hm
      rw [List.filterMap_cons_some hm, List.filter_cons_of_pos (by simp [hm]), List.map_cons,
        List.map_cons, ih, ho, hr, finding_of_mention? hm]

private theorem filter_phrases (text : List Char) :
    (phrases text).filter (fun m => m.origin ≠ .bounds) = phrases text ∧
      (phrases text).filter (fun m => m.origin = .bounds) = [] := by
  have hphrase : ∀ m ∈ phrases text, m.origin ≠ .bounds := by
    intro m hm
    obtain ⟨claim, -, -, horigin⟩ := mem_phrases hm
    simp [horigin]
  constructor
  · exact List.filter_eq_self.2 fun m hm => by simpa using hphrase m hm
  · exact List.filter_eq_nil_iff.2 fun m hm => by simpa using hphrase m hm

/-- A prompt is read without loss, repetition or change of order. -/
theorem parse_accounts (prompt : String) :
    ∃ claims bounds, Accounts prompt.toList claims bounds (parse prompt).mentions := by
  let text := prompt.toList
  obtain ⟨hops, hnone⟩ := filter_phrases text
  have hmentions : (parse prompt).mentions =
      ((boundsMention? (looseBounds (findings text))).map fun window =>
        insertMention window (phrases text)).getD (phrases text) := assembleFindings_mentions _
  refine ⟨claims (findings text), looseBounds (findings text), ?_⟩
  have hordered := mentions_inOrder prompt
  refine ⟨readings_findings text, ?phrases, ?window, hordered.imp fun h => h.1,
    hordered.imp fun h => h.2.1, hordered.imp fun h => h.2.2⟩
  case phrases =>
    rw [← map_phrases, hmentions]
    congr 1
    cases hwindow : boundsMention? (looseBounds (findings text)) with
    | none => exact hops
    | some window =>
      have horigin := (boundsMention?_offset hwindow).2.1
      rw [Option.map_some, Option.getD_some, filter_insertMention_of_not (by simp [horigin])]
      exact hops
  case window =>
    rw [hmentions]
    cases hbounds : looseBounds (findings text) with
    | nil => exact hnone
    | cons first rest =>
      have hwindow : boundsMention? (first :: rest) = some ⟨first.start, .bounds, .trim
          (((first :: rest).filterMap Found.startBound?).head?.getD 0)
          ((first :: rest).filterMap Found.finishBound?).head?⟩ := by
        rw [boundsMention?, List.head?_filterMap, List.head?_filterMap]
        rfl
      rw [hwindow, Option.map_some, Option.getD_some, filter_insertMention_of_pos (by simp) hnone]
      rfl

end Prompt
end VideoEdit

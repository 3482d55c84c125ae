import Mathlib.Data.List.Nodup
import VideoEdit.Config.Reading
/-!
# Reading the pairs of a mapping

Each key of a mapping chooses a field, and the field changes one part of the settings. So whatever
the order of the pairs, a part of the settings is what the pair with its key says, and is left alone
where there is none. One key that chooses no field, or one value that its field refuses, is enough
to refuse the mapping.
-/
namespace VideoEdit

namespace Config
open Yaml (Node Anchors)

def keyText? (anchors : Anchors) (key : Node) : Option String :=
  match key.resolve anchors with
  | .scalar _ _ text => some (String.ofList text)
  | _ => none

/-- What the pairs of a mapping say under a key: nothing, or a value as it is written. -/
def Gives {β : Type} (writes : β → Node → Prop) (anchors : Anchors) (pairs : List (Node × Node))
    (key : String) : Option β → Prop
  | none => ∀ pair ∈ pairs, keyText? anchors pair.1 ≠ some key
  | some value => ∃ pair ∈ pairs,
      keyText? anchors pair.1 = some key ∧ writes value (pair.2.resolve anchors)

/-- The keys of a mapping are among the given ones, and none of them is there twice. -/
structure HasKeys (anchors : Anchors) (keys : List String) (pairs : List (Node × Node)) : Prop where
  known : ∀ pair ∈ pairs, ∃ key ∈ keys, keyText? anchors pair.1 = some key
  once : (pairs.map fun pair => keyText? anchors pair.1).Nodup

/-- A node is a mapping with a key that is none of the given ones. -/
def HasUnknownKey (anchors : Anchors) (keys : List String) (node : Node) : Prop :=
  ∃ p pairs, node = .mapping p pairs ∧
    ∃ pair ∈ pairs, ∀ key ∈ keys, keyText? anchors pair.1 ≠ some key

private theorem Gives.exists_value {β : Type} {writes : β → Node → Prop} {anchors : Anchors}
    {pairs : List (Node × Node)} {key : String} {value? : Option β}
    (h : Gives writes anchors pairs key value?)
    (honce : (pairs.map fun pair => keyText? anchors pair.1).Nodup) {pair : Node × Node}
    (hpair : pair ∈ pairs) (hkey : keyText? anchors pair.1 = some key) :
    ∃ value, value? = some value ∧ writes value (pair.2.resolve anchors) := by
  cases value? with
  | none => exact absurd hkey (h pair hpair)
  | some value =>
    obtain ⟨other, hother, hsame, hwrites⟩ := h
    obtain rfl := List.inj_on_of_nodup_map honce hother hpair (hsame.trans hkey.symm)
    exact ⟨value, rfl, hwrites⟩

private theorem refuse_ne_ok {α : Type} {node : Node} {path : List String} {complaint : Complaint}
    {value : α} : refuse node path complaint ≠ .ok value := by
  cases node <;> simp [refuse]

theorem exists_of_map_eq_ok {α β : Type} {reading : Reading α} {f : α → β} {b : β}
    (h : reading.map f = .ok b) : ∃ a, reading = .ok a ∧ f a = b := by
  cases reading with
  | error e => cases h
  | ok a => exact ⟨a, rfl, Except.ok.inj h⟩

private theorem readText_eq_ok_iff {expected key : String} {path : List String} {anchors : Anchors}
    {node : Node} :
    readText expected path (node.resolve anchors) = .ok key ↔ keyText? anchors node = some key := by
  unfold keyText? readText
  cases node.resolve anchors <;> simp [refuse_ne_ok]

namespace Field
variable {α β γ : Type}

/-- Whatever a field reads, it leaves a part of the settings alone. -/
def Keeps (field : Field α) (part : α → γ) : Prop :=
  ∀ here path node s s', field.read here path node s = .ok s' → part s' = part s

/-- A field takes a value that is written, and sets it. -/
def Takes (field : Field α) (anchors : Anchors) (writes : β → Node → Prop) (set : β → α → α) :
    Prop :=
  ∀ here path node value s, writes value (node.resolve anchors) →
    field.read here path node s = .ok (set value s)

theorem of_keeps {anchors : Anchors} {key : String} {read : List String → Node → Reading β}
    {set : β → α → α} {part : α → γ} (h : ∀ value s, part (set value s) = part s) :
    (Field.of anchors key read set).Keeps part := by
  intro here path node s s' hread
  obtain ⟨value, -, rfl⟩ := exists_of_map_eq_ok hread
  exact h value s

private theorem of_takes {anchors : Anchors} {key : String} {read : List String → Node → Reading γ}
    {set : γ → α → α} {writes : β → Node → Prop} (result : β → γ)
    (h : ∀ path node value, writes value node → read path node = .ok (result value)) :
    (Field.of anchors key read set).Takes anchors writes fun value => set (result value) := by
  intro here path node value s hwrites
  simp only [Field.of, h path _ value hwrites]
  rfl

end Field

section Pairs
variable {α β γ : Type} {anchors : Anchors} {fields : List (Field α)} {here : Place}
  {seen : List String} {pairs : List (Node × Node)} {s s' : α}

def chosen? (fields : List (Field α)) (key : String) : Option (Field α) :=
  fields.find? fun field => field.key = key

private theorem readPairs_cons {pair : Node × Node} {key : String} {field : Field α}
    (hkey : keyText? anchors pair.1 = some key) (hfield : chosen? fields key = some field)
    (hseen : key ∉ seen) :
    readPairs anchors fields here seen (pair :: pairs) s =
      (field.read here (here.path ++ [pathPart pair.1]) pair.2 s).bind
        (readPairs anchors fields here (key :: seen) pairs) := by
  unfold readPairs
  rw [readText_eq_ok_iff.2 hkey]
  simp only [chosen?] at hfield
  simp only [bind, Except.bind, hfield, if_neg hseen]

/-- What a pair asks for: its key chooses a field, and the field takes the value. -/
def Accepts (anchors : Anchors) (fields : List (Field α)) (pair : Node × Node) : Prop :=
  ∃ key field, keyText? anchors pair.1 = some key ∧ chosen? fields key = some field ∧
    ∀ here path s, ∃ s', field.read here path pair.2 s = .ok s'

/-- A key sets one part of the settings to what a value results in, and no other key changes that
part. -/
structure Sets (anchors : Anchors) (fields : List (Field α)) (key : String)
    (writes : β → Node → Prop) (part : α → γ) (result : β → γ) : Prop where
  takes : ∃ field set, chosen? fields key = some field ∧ field.Takes anchors writes set ∧
    ∀ value s, part (set value s) = result value
  keeps : ∀ field ∈ fields, field.key ≠ key → field.Keeps part

private theorem exists_readPairs (haccepts : ∀ pair ∈ pairs, Accepts anchors fields pair)
    (honce : (pairs.map fun pair => keyText? anchors pair.1).Nodup)
    (hseen : ∀ pair ∈ pairs, ∀ key ∈ seen, keyText? anchors pair.1 ≠ some key) (s : α) :
    ∃ s', readPairs anchors fields here seen pairs s = .ok s' := by
  induction pairs generalizing seen s with
  | nil => exact ⟨s, rfl⟩
  | cons pair pairs ih =>
    obtain ⟨key, field, hkey, hfield, hread⟩ := haccepts pair List.mem_cons_self
    obtain ⟨hnew, honce⟩ := List.nodup_cons.1 honce
    have hfresh : key ∉ seen := fun hmem => hseen pair List.mem_cons_self key hmem hkey
    obtain ⟨mid, hmid⟩ := hread here (here.path ++ [pathPart pair.1]) s
    rw [readPairs_cons hkey hfield hfresh, hmid]
    refine ih (fun other hother => haccepts other (List.mem_cons_of_mem _ hother)) honce
      (fun other hother name hname hsame => ?_) mid
    rcases List.mem_cons.1 hname with rfl | hname
    · exact hnew (List.mem_map.2 ⟨other, hother, hsame.trans hkey.symm⟩)
    · exact hseen other (List.mem_cons_of_mem _ hother) name hname hsame

theorem exists_readPairs_of_hasKeys {keys : List String} (hkeys : HasKeys anchors keys pairs)
    (haccepts : ∀ key ∈ keys, ∀ pair ∈ pairs, keyText? anchors pair.1 = some key →
      Accepts anchors fields pair) (s : α) :
    ∃ s', readPairs anchors fields here [] pairs s = .ok s' := by
  refine exists_readPairs (fun pair hpair => ?_) hkeys.once
    (fun _ _ _ hseen => absurd hseen List.not_mem_nil) s
  obtain ⟨key, hmem, hkey⟩ := hkeys.known pair hpair
  exact haccepts key hmem pair hpair hkey

private theorem readPairs_cons_eq_ok {pair : Node × Node}
    (h : readPairs anchors fields here seen (pair :: pairs) s = .ok s') :
    ∃ key field mid, keyText? anchors pair.1 = some key ∧ chosen? fields key = some field ∧
      field.read here (here.path ++ [pathPart pair.1]) pair.2 s = .ok mid ∧
      readPairs anchors fields here (key :: seen) pairs mid = .ok s' := by
  unfold readPairs at h
  cases hkey : readText "field identifier" here.path (pair.1.resolve anchors) with
  | error e =>
    rw [hkey] at h
    cases h
  | ok key =>
    simp only [hkey, bind, Except.bind] at h
    split at h
    · exact absurd h refuse_ne_ok
    next field hfield =>
      split at h
      · cases h
      · cases hread : field.read here (here.path ++ [pathPart pair.1]) pair.2 s with
        | error e =>
          rw [hread] at h
          cases h
        | ok mid =>
          rw [hread] at h
          exact ⟨key, field, mid, readText_eq_ok_iff.1 hkey, hfield, hread, h⟩

variable {part : α → γ} {key : String}

private theorem part_of_readPairs_of_missing
    (hkeeps : ∀ field ∈ fields, field.key ≠ key → field.Keeps part)
    (hmissing : ∀ pair ∈ pairs, keyText? anchors pair.1 ≠ some key)
    (h : readPairs anchors fields here seen pairs s = .ok s') : part s' = part s := by
  induction pairs generalizing seen s with
  | nil =>
    cases h
    rfl
  | cons pair pairs ih =>
    obtain ⟨name, field, mid, hname, hfield, hread, hrest⟩ := readPairs_cons_eq_ok h
    have hother : field.key ≠ key := by
      rintro rfl
      have hsame := List.find?_some hfield
      rw [decide_eq_true_iff] at hsame
      exact hmissing pair List.mem_cons_self (hname.trans (congrArg some hsame.symm))
    rw [ih (fun other hother => hmissing other (List.mem_cons_of_mem _ hother)) hrest]
    exact hkeeps field (List.mem_of_find?_eq_some hfield) hother _ _ _ _ _ hread

namespace Sets
variable {writes : β → Node → Prop} {result : β → γ} {value? : Option β}

theorem of_field {read : List String → Node → Reading γ} {set : γ → α → α}
    (hfield : chosen? fields key = some (.of anchors key read set))
    (hread : ∀ path node value, writes value node → read path node = .ok (result value))
    (hpart : ∀ value s, part (set value s) = value)
    (hkeeps : ∀ field ∈ fields, field.key ≠ key → field.Keeps part) :
    Sets anchors fields key writes part result :=
  ⟨⟨_, _, hfield, Field.of_takes result hread, fun value => hpart (result value)⟩, hkeeps⟩

theorem accepts (h : Sets anchors fields key writes part result)
    (hgives : Gives writes anchors pairs key value?)
    (honce : (pairs.map fun pair => keyText? anchors pair.1).Nodup) {pair : Node × Node}
    (hpair : pair ∈ pairs) (hkey : keyText? anchors pair.1 = some key) :
    Accepts anchors fields pair := by
  obtain ⟨value, -, hwrites⟩ := hgives.exists_value honce hpair hkey
  obtain ⟨field, set, hfield, htakes, -⟩ := h.takes
  exact ⟨key, field, hkey, hfield, fun here path s => ⟨_, htakes here path _ value s hwrites⟩⟩

/-- A part of the settings is what the pair with its key says, and stays as it was without one. -/
theorem part_eq (h : Sets anchors fields key writes part result)
    (hgives : Gives writes anchors pairs key value?)
    (honce : (pairs.map fun pair => keyText? anchors pair.1).Nodup)
    (hread : readPairs anchors fields here seen pairs s = .ok s') :
    part s' = (value?.map result).getD (part s) := by
  cases value? with
  | none => exact part_of_readPairs_of_missing h.keeps hgives hread
  | some value =>
    obtain ⟨field, set, hfield, htakes, hpart⟩ := h.takes
    induction pairs generalizing seen s with
    | nil =>
      obtain ⟨pair, hpair, -⟩ := hgives
      cases hpair
    | cons pair pairs ih =>
      obtain ⟨name, chosen, mid, hname, hchosen, hfirst, hrest⟩ := readPairs_cons_eq_ok hread
      obtain ⟨hnew, honce'⟩ := List.nodup_cons.1 honce
      by_cases hkey : name = key
      · subst hkey
        obtain rfl : field = chosen := Option.some_inj.1 (hfield.symm.trans hchosen)
        obtain ⟨value', hvalue, hwrites⟩ := hgives.exists_value honce List.mem_cons_self hname
        obtain rfl : value = value' := Option.some_inj.1 hvalue
        obtain rfl : set value s = mid :=
          Except.ok.inj ((htakes _ _ _ value s hwrites).symm.trans hfirst)
        rw [part_of_readPairs_of_missing h.keeps (fun other hother hsame => ?_) hrest, hpart]
        · rfl
        · exact hnew (List.mem_map.2 ⟨other, hother, hsame.trans hname.symm⟩)
      · obtain ⟨other, hother, hsame, hwrites⟩ := hgives
        rcases List.mem_cons.1 hother with rfl | hother
        · exact absurd (Option.some_inj.1 (hname.symm.trans hsame)) hkey
        · have hset := ih honce' hrest ⟨other, hother, hsame, hwrites⟩
          rwa [Option.map_some, Option.getD_some] at hset ⊢

end Sets

/-- What a pair is refused for: its key is no scalar, or chooses no field, or the field refuses the
value. -/
def Rejects (anchors : Anchors) (fields : List (Field α)) (pair : Node × Node) : Prop :=
  ∀ key field, keyText? anchors pair.1 = some key → chosen? fields key = some field →
    ∀ here path s, ∃ e, field.read here path pair.2 s = .error e

private theorem rejects_of_unknown {pair : Node × Node}
    (h : ∀ key ∈ fields.map Field.key, keyText? anchors pair.1 ≠ some key) :
    Rejects anchors fields pair := by
  intro key field hkey hfield
  have hsame := List.find?_some hfield
  rw [decide_eq_true_iff] at hsame
  exact absurd (hkey.trans (congrArg some hsame.symm))
    (h field.key (List.mem_map_of_mem (List.mem_of_find?_eq_some hfield)))

theorem readPairs_eq_error {pair : Node × Node} (hpair : pair ∈ pairs)
    (hrejects : Rejects anchors fields pair) :
    ∃ e, readPairs anchors fields here seen pairs s = .error e := by
  cases h : readPairs anchors fields here seen pairs s with
  | error e => exact ⟨e, rfl⟩
  | ok s' =>
    exfalso
    induction pairs generalizing seen s with
    | nil => cases hpair
    | cons first pairs ih =>
      obtain ⟨name, field, mid, hname, hfield, hread, hrest⟩ := readPairs_cons_eq_ok h
      rcases List.mem_cons.1 hpair with rfl | hpair
      · obtain ⟨e, he⟩ := hrejects name field hname hfield here (here.path ++ [pathPart pair.1]) s
        rw [he] at hread
        cases hread
      · exact ih hpair hrest

theorem readGroup_eq_error {name : String} {path : List String} {node : Node}
    (h : HasUnknownKey anchors (fields.map Field.key) node) :
    ∃ e, readGroup anchors name fields s path node = .error e := by
  obtain ⟨p, pairs, rfl, pair, hpair, hunknown⟩ := h
  exact readPairs_eq_error hpair (rejects_of_unknown hunknown)

end Pairs
end Config
end VideoEdit

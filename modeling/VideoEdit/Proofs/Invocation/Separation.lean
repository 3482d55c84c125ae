import VideoEdit.Invocation.Fingerprint
import VideoEdit.Proofs.Files.Workspace
import VideoEdit.Proofs.Invocation.Values
import VideoEdit.Proofs.Number.Decimal
import VideoEdit.Proofs.Text.Fields
/-!
# Fingerprints of different invocations

The bytes under a fingerprint are the arguments in UTF-8, each closed by a zero byte. They give back
the pieces into which zeros cut the arguments, and so they tell two invocations apart as long as no
argument has a zero in it. Flags, numbers, filters and checked names have none; what the settings say
about the encoding of MP4 is passed on as it is.
-/
namespace VideoEdit

namespace Utf8

private theorem loop_eq (bytes : ByteArray) (i : Nat) (before : Bytes) :
    ByteArray.toList.loop bytes i before = before.reverse ++ bytes.data.toList.drop i := by
  fun_induction ByteArray.toList.loop bytes i before with
  | case1 i before h ih =>
    have hbyte : bytes.get! i = bytes.data.toList[i] := getElem!_pos bytes.data i h
    rw [ih, List.drop_eq_getElem_cons h, hbyte, List.reverse_cons, List.append_assoc]
    rfl
  | case2 i before h =>
    rw [List.drop_eq_nil_of_le (Nat.le_of_not_lt h), List.append_nil]

private theorem encode_eq (text : String) : encode text = text.toByteArray.data.toList :=
  loop_eq text.toByteArray 0 []

private theorem encode_append (text rest : String) :
    encode (text ++ rest) = encode text ++ encode rest := by
  simp only [encode_eq, String.toByteArray_append, ByteArray.data_append, Array.toList_append]

private theorem encode_injective : Function.Injective encode := by
  intro text text' h
  rw [encode_eq, encode_eq, Array.toList_inj] at h
  exact String.toByteArray_inj.1 (ByteArray.ext h)

end Utf8

namespace Arguments

def pieces (arguments : List String) : List (List Char) :=
  (arguments.map String.toList).flatMap (fields '\x00')

private theorem closed_eq (argument : String) :
    closed argument = Utf8.encode (argument ++ "\x00") := by
  have hzero : Utf8.encode "\x00" = [0] := by
    rw [Utf8.encode_eq]
    rfl
  rw [Utf8.encode_append, hzero, closed]

private theorem stream_eq (arguments : List String) :
    stream arguments =
      Utf8.encode (String.ofList ((arguments.map String.toList).flatMap (· ++ ['\x00']))) := by
  induction arguments with
  | nil =>
    rw [Utf8.encode_eq]
    rfl
  | cons argument arguments ih =>
    have hclosed : argument ++ "\x00" = String.ofList (argument.toList ++ ['\x00']) :=
      String.ext (by simp)
    rw [stream, List.flatMap_cons, ← stream, ih, closed_eq, hclosed, ← Utf8.encode_append,
      ← String.ofList_append, List.map_cons, List.flatMap_cons]

private theorem stream_eq_iff {arguments others : List String} :
    stream arguments = stream others ↔ pieces arguments = pieces others := by
  rw [stream_eq, stream_eq, Utf8.encode_injective.eq_iff, String.ofList_inj]
  exact flatMap_concat_eq_iff

/-- An argument that no zero cuts. -/
def Whole (argument : String) : Prop := '\x00' ∉ argument.toList

instance (argument : String) : Decidable (Whole argument) := inferInstanceAs (Decidable (¬_))

private theorem pieces_of_whole {arguments : List String}
    (h : ∀ argument ∈ arguments, Whole argument) :
    pieces arguments = arguments.map String.toList := by
  have hcut : ∀ text ∈ arguments.map String.toList, fields '\x00' text = [text] := by
    intro text htext
    obtain ⟨argument, hargument, rfl⟩ := List.mem_map.1 htext
    exact fields_of_not_mem (h argument hargument)
  rw [pieces, List.flatMap_congr hcut]
  exact List.flatMap_singleton' _

private theorem eq_of_stream_eq {arguments others : List String}
    (h : ∀ argument ∈ arguments, Whole argument) (h' : ∀ argument ∈ others, Whole argument)
    (hstream : stream arguments = stream others) : arguments = others := by
  rw [stream_eq_iff, pieces_of_whole h, pieces_of_whole h'] at hstream
  exact List.map_injective_iff.2 (fun _ _ => String.ext) hstream

private theorem whole_append {argument rest : String} (h : Whole argument) (h' : Whole rest) :
    Whole (argument ++ rest) := by
  rw [Whole, String.toList_append, List.mem_append, not_or]
  exact ⟨h, h'⟩

private theorem whole_toFixed (x : Binary64) (places : Nat) :
    Whole (String.ofList (x.toFixed places)) := by
  rw [Whole, String.toList_ofList]
  exact Binary64.not_mem_toFixed (by decide) places x

private theorem whole_toDecimal (x : Binary64) (places : Nat) :
    Whole (String.ofList (x.toDecimal places)) := by
  rw [Whole, String.toList_ofList]
  exact Binary64.not_mem_toDecimal (by decide) places x

private theorem whole_repr (n : Nat) : Whole n.repr := by
  rw [Whole, Nat.repr, String.toList_ofList]
  exact not_mem_toDigits (by decide) n

private theorem whole_intercalate {texts : List String} (h : ∀ text ∈ texts, Whole text) :
    Whole (",".intercalate texts) := by
  intro hmem
  rw [String.toList_intercalate] at hmem
  obtain hcomma | ⟨text, htext, hzero⟩ := mem_of_mem_intercalate hmem
  · exact absurd hcomma (by decide)
  · obtain ⟨filter, hfilter, rfl⟩ := List.mem_map.1 htext
    exact h filter hfilter hzero

private theorem whole_of_isPlain {name : String} (h : ResourceName.isPlain name) : Whole name := by
  simp only [ResourceName.isPlain, Bool.and_eq_true, List.all_eq_true] at h
  intro hmem
  exact absurd (h.2 '\x00' hmem).2 (by decide)

private theorem whole_ofOperation (portrait : PortraitSettings) (op : Operation) :
    ∀ filter ∈ Filters.ofOperation portrait op, Whole filter := by
  have hsize : Whole (portrait.width.repr ++ ":" ++ portrait.height.repr) :=
    whole_append (whole_append (whole_repr _) (by decide)) (whole_repr _)
  cases op with
  | trim | mute => simp [Filters.ofOperation]
  | grayscale => simp [Filters.ofOperation, Whole]
  | speed factor =>
    rw [Filters.ofOperation, List.forall_mem_singleton]
    exact whole_append (whole_append (by decide) (whole_toFixed _ _)) (by decide)
  | brightness value =>
    rw [Filters.ofOperation, List.forall_mem_singleton]
    exact whole_append (by decide) (whole_toDecimal value 2)
  | crop mode =>
    cases mode with
    | square => simp [Filters.ofOperation, Whole]
    | portraitFill =>
      rw [Filters.ofOperation, List.forall_mem_cons, List.forall_mem_singleton]
      exact ⟨whole_append (whole_append (by decide) hsize) (by decide),
        whole_append (by decide) hsize⟩

private theorem whole_video (plan : Plan) (settings : Settings) :
    ∀ filter ∈ Filters.video plan settings, Whole filter := by
  intro filter hfilter
  rcases List.mem_append.1 hfilter with hfilter | hfilter
  · obtain ⟨op, -, hfilter⟩ := List.mem_flatMap.1 hfilter
    exact whole_ofOperation settings.portrait op filter hfilter
  · split_ifs at hfilter
    · rw [List.mem_singleton.1 hfilter]
      exact whole_append (by decide) (whole_repr _)
    · cases hfilter

private theorem whole_write {flag : String} (hflag : Whole flag) {values : List String}
    (h : ∀ value ∈ values, Whole value) :
    ∀ argument ∈ (values.map (Item.option flag)).flatMap Item.write, Whole argument := by
  intro argument hargument
  rw [List.flatMap_map, List.mem_flatMap] at hargument
  obtain ⟨value, hvalue, hargument⟩ := hargument
  rcases List.mem_pair.1 hargument with rfl | rfl
  · exact hflag
  · exact h _ hvalue

private theorem whole_times (settings : Settings) (time? : Option Binary64) :
    ∀ value ∈ times settings time?, Whole value := by
  intro value hvalue
  obtain ⟨time, -, rfl⟩ := List.mem_map.1 hvalue
  exact whole_toFixed time settings.timePrecision

private theorem whole_videoChain (plan : Plan) (settings : Settings) :
    ∀ chain ∈ videoChain plan settings, Whole chain := by
  unfold videoChain
  dsimp only
  split_ifs
  · simp
  · rw [List.forall_mem_singleton]
    exact whole_intercalate (whole_video plan settings)

private theorem whole_filter? (factors : List Binary64) :
    ∀ filter ∈ (Tempo.filter? factors).toList, Whole filter := by
  have hstep : ∀ filter ∈ factors.map Tempo.step, Whole filter := by
    intro filter hfilter
    obtain ⟨factor, -, rfl⟩ := List.mem_map.1 hfilter
    exact whole_append (by decide) (whole_toDecimal factor 4)
  unfold Tempo.filter?
  split_ifs
  · simp
  · rw [Option.toList_some, List.forall_mem_singleton]
    exact whole_intercalate hstep

private theorem whole_audio (plan : Plan) : ∀ argument ∈ audio plan, Whole argument := by
  rw [audio_eq, sound, List.flatMap_append, List.forall_mem_append]
  refine ⟨?_, whole_write (by decide) (whole_filter? plan.tempi)⟩
  split_ifs <;> decide

private theorem whole_compile {plan : Plan} {input output : String} {settings : Settings}
    (h : ResourceName.check input output = .ok ())
    (hformat : ∀ argument ∈ format plan settings, Whole argument) :
    ∀ argument ∈ plan.compile input output settings, Whole argument := by
  -- Control characters are refused in names; nothing of the kind is asked of the settings.
  obtain ⟨hinput, houtput, -⟩ := ResourceName.check_eq_ok_iff.1 h
  simp only [Plan.compile, seek_eq, duration_eq, videoFilters_eq, List.forall_mem_append,
    List.forall_mem_cons, List.not_mem_nil, IsEmpty.forall_iff, implies_true, and_true]
  refine ⟨⟨⟨⟨⟨⟨?seek, ?flag, ?input⟩, ?duration⟩, ?filters⟩, ?audio⟩, hformat⟩, ?output⟩
  case seek => exact whole_write (by decide) (whole_times settings _)
  case flag => decide
  case input => exact whole_of_isPlain hinput
  case duration => exact whole_write (by decide) (whole_times settings _)
  case filters => exact whole_write (by decide) (whole_videoChain plan settings)
  case audio => exact whole_audio plan
  case output => exact whole_of_isPlain houtput

/-- Two invocations that differ have different bytes under their fingerprints, if their names are
checked and their settings bring no zero into an argument. -/
theorem stream_compile_ne {plan plan' : Plan} {input output input' output' : String}
    {settings settings' : Settings} (h : ResourceName.check input output = .ok ())
    (h' : ResourceName.check input' output' = .ok ())
    (hformat : ∀ argument ∈ format plan settings, Whole argument)
    (hformat' : ∀ argument ∈ format plan' settings', Whole argument)
    (hne : plan.compile input output settings ≠ plan'.compile input' output' settings') :
    stream (plan.compile input output settings) ≠
      stream (plan'.compile input' output' settings') :=
  fun hstream => hne (eq_of_stream_eq (whole_compile h hformat) (whole_compile h' hformat') hstream)

/-- A codec of one invocation is the preset of the other. -/
theorem stream_compile_ne_codec :
    let plan := (⟨[], .mp4⟩ : Extraction).plan .first
    let settings : Settings := { mp4 := { videoCodec := "slow", preset := "medium" } }
    let settings' : Settings := { mp4 := { videoCodec := "medium", preset := "slow" } }
    ResourceName.check "in.mp4" "out.mp4" = .ok () ∧
      (∀ argument ∈ format plan settings, Whole argument) ∧
      (∀ argument ∈ format plan settings', Whole argument) ∧
      plan.compile "in.mp4" "out.mp4" settings ≠ plan.compile "in.mp4" "out.mp4" settings' ∧
      stream (plan.compile "in.mp4" "out.mp4" settings) ≠
        stream (plan.compile "in.mp4" "out.mp4" settings') := by
  intro plan settings settings'
  have hnames : ResourceName.check "in.mp4" "out.mp4" = .ok () := by decide +kernel
  have hformat : ∀ argument ∈ format plan settings, Whole argument := by decide +kernel
  have hformat' : ∀ argument ∈ format plan settings', Whole argument := by decide +kernel
  have hne : plan.compile "in.mp4" "out.mp4" settings ≠
      plan.compile "in.mp4" "out.mp4" settings' := by decide +kernel
  exact ⟨hnames, hformat, hformat', hne, stream_compile_ne hnames hnames hformat hformat' hne⟩

/-- Settings may have zeros in them, and then two invocations can share a fingerprint: what ends the
codec of one begins the preset of the other. -/
theorem stream_compile_eq_zeros :
    let plan := (⟨[], .mp4⟩ : Extraction).plan .first
    let settings : Settings := { mp4 := { videoCodec := "x\x00-preset\x00y", preset := "z" } }
    let settings' : Settings := { mp4 := { videoCodec := "x", preset := "y\x00-preset\x00z" } }
    settings.check = .ok () ∧ settings'.check = .ok () ∧
      ResourceName.check "in.mp4" "out.mp4" = .ok () ∧
      plan.compile "in.mp4" "out.mp4" settings ≠ plan.compile "in.mp4" "out.mp4" settings' ∧
      stream (plan.compile "in.mp4" "out.mp4" settings) =
        stream (plan.compile "in.mp4" "out.mp4" settings') := by
  intro plan settings settings'
  refine ⟨by decide +kernel, by decide +kernel, by decide +kernel, by decide +kernel, ?_⟩
  rw [stream_eq_iff]
  decide +kernel

end Arguments
end VideoEdit

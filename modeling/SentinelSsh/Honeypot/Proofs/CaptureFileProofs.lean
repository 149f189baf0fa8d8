import SentinelSsh.Honeypot.CaptureFile
import SentinelSsh.Honeypot.Proofs.CaptureProofs
import SentinelSsh.Lib.Proofs.JsonReaderProofs
import SentinelSsh.Lib.Proofs.Utf8Proofs

/-!
# What the capture file holds

Whatever an attacker typed, the file reads back as the records that were written, in their order
(`captureFile_replay`): a record stands on one line, and its text determines it.
-/

namespace SentinelSsh.Honeypot

open Python SentinelSsh.Core

/-! ## Records and their dictionaries -/

theorem distinctItems_commands (cs : List CommandRecord) :
    Json.DistinctItems (cs.map CommandRecord.toDict) := by
  induction cs with
  | nil => trivial
  | cons c cs ih => exact ⟨⟨by simp, trivial, trivial, trivial, trivial⟩, ih⟩

theorem distinctKeys_jsonStr (s : Option String) : (jsonStr s).DistinctKeys := by
  cases s <;> trivial

theorem distinctKeys_toDict (record : AttackRecord) : record.toDict.DistinctKeys := by
  have hpassword : (record.password.elim Json.Value.none .text).DistinctKeys := by
    cases record.password <;> trivial
  exact ⟨by simp, trivial, trivial, trivial, trivial, distinctKeys_jsonStr _, hpassword,
    distinctKeys_jsonStr _, trivial, trivial, distinctItems_commands _, trivial⟩

theorem jsonStr_injective : Function.Injective jsonStr := by
  intro s t h
  cases s with
  | none =>
    cases t with
    | none => rfl
    | some t => cases h
  | some s =>
    cases t with
    | none => cases h
    | some t =>
      cases h
      rfl

theorem commandType_text_injective : Function.Injective CommandType.text := by
  intro a b h
  cases a <;> cases b <;> first | rfl | exact absurd h (by decide)

theorem command_toDict_injective : Function.Injective CommandRecord.toDict := by
  rintro ⟨t, c, ty⟩ ⟨t', c', ty'⟩ h
  simp only [CommandRecord.toDict, Json.Value.dict.injEq, List.cons.injEq, Prod.mk.injEq, true_and,
    Json.Value.text.injEq, Text.str.injEq, and_true] at h
  obtain ⟨rfl, rfl, hty⟩ := h
  obtain rfl := commandType_text_injective hty
  rfl

theorem password_injective :
    Function.Injective fun password : Option Text => password.elim Json.Value.none .text := by
  intro s t h
  cases s with
  | none =>
    cases t with
    | none => rfl
    | some t => cases h
  | some s =>
    cases t with
    | none => cases h
    | some t =>
      cases h
      rfl

/-- The dictionary of a record determines it. -/
theorem toDict_injective : Function.Injective AttackRecord.toDict := by
  intro r r' h
  simp only [AttackRecord.toDict, Json.Value.dict.injEq, List.cons.injEq, Prod.mk.injEq, true_and,
    Json.Value.text.injEq, Text.str.injEq, Json.Value.int.injEq, Json.Value.float.injEq,
    Json.Value.list.injEq, Nat.cast_inj, and_true] at h
  obtain ⟨hsession, htimestamp, hip, hport, huser, hpassword, hversion, hduration, hattempts, hcommands⟩ := h
  have huser' := jsonStr_injective huser
  have hpassword' := password_injective hpassword
  have hversion' := jsonStr_injective hversion
  have hcommands' := List.map_injective_iff.mpr command_toDict_injective hcommands
  cases r
  cases r'
  simp_all

/-! ## Sinks -/

variable {p : IngestPipeline} {engine : Engine} {clock : Nat → Datetime}

theorem jsonl_stdoutSink {st st' : Stores} {record : AttackRecord} (h : stdoutSink st record = .ok st') :
    st'.jsonl = st.jsonl := by
  obtain ⟨line, -, rfl⟩ := Escapes.map_eq_ok.mp h
  rfl

theorem jsonl_pipelineSink {st st' : Stores} {record : AttackRecord}
    (h : pipelineSink p engine clock st record = .ok st') : st'.jsonl = st.jsonl := by
  unfold pipelineSink at h
  cases hp : p.process engine st.db (record.toCapture clock) with
  | error e =>
    rw [hp] at h
    cases h
  | ok result =>
    rw [hp] at h
    cases h
    rfl

/-- The other sinks leave the file alone, whether they succeed or not. -/
theorem jsonl_others {names : List SinkName} (h : SinkName.jsonl ∉ names) (st : Stores) (record : AttackRecord) :
    (multiSink (names.map (SinkName.sink p engine clock)) st record).jsonl = st.jsonl := by
  unfold multiSink
  induction names generalizing st with
  | nil => rfl
  | cons name names ih =>
    have hname : ((name.sink p engine clock st record).toOption.getD st).jsonl = st.jsonl := by
      cases hsink : name.sink p engine clock st record with
      | error e => rfl
      | ok st' =>
        cases name with
        | jsonl => exact absurd (List.mem_cons_self ..) h
        | stdout => exact jsonl_stdoutSink hsink
        | pipeline => exact jsonl_pipelineSink hsink
    rw [List.map_cons, List.foldl_cons, ih (fun hmem => h (List.mem_cons_of_mem _ hmem)), hname]

theorem jsonl_notMem_buildSink (config : HoneypotConfig) (pipelineStarts : Bool) :
    ∃ names, buildSink config pipelineStarts = .jsonl :: names ∧ SinkName.jsonl ∉ names := by
  refine ⟨_, rfl, ?_⟩
  split_ifs <;> simp

/-- A session adds its line to the file, if it has one. -/
theorem jsonl_multiSink (config : HoneypotConfig) (pipelineStarts : Bool) (st : Stores) (record : AttackRecord) :
    (multiSink ((buildSink config pipelineStarts).map (SinkName.sink p engine clock)) st record).jsonl =
      st.jsonl ++ record.line.toOption.toList := by
  obtain ⟨names, hnames, hothers⟩ := jsonl_notMem_buildSink config pipelineStarts
  rw [hnames, List.map_cons, multiSink, List.foldl_cons, ← multiSink, jsonl_others hothers]
  show ((jsonlSink st record).toOption.getD st).jsonl = _
  unfold jsonlSink
  cases record.line with
  | error e => exact (List.append_nil _).symm
  | ok line => rfl

theorem jsonl_writeSessions (config : HoneypotConfig) (pipelineStarts : Bool) (st : Stores)
    (sessions : List (AttackRecord × (Nat → Datetime))) :
    (writeSessions p engine config pipelineStarts st sessions).jsonl =
      st.jsonl ++ sessions.flatMap fun session => session.1.line.toOption.toList := by
  unfold writeSessions
  induction sessions generalizing st with
  | nil => exact (List.append_nil _).symm
  | cons session sessions ih =>
    rw [List.foldl_cons, ih, jsonl_multiSink, List.flatMap_cons, List.append_assoc]

/-! ## The file -/

theorem line_of_isText {record : AttackRecord} (h : record.isText = true) : ∃ line, record.line = .ok line := by
  refine (line_ok_iff record).mpr fun b hb => ?_
  rw [AttackRecord.isText, hb] at h
  exact Bool.false_ne_true h

theorem line_of_not_isText {record : AttackRecord} (h : record.isText = false) :
    record.line.toOption = none := by
  have hbytes : ¬ ∃ line, record.line = .ok line := by
    rw [line_ok_iff]
    intro hall
    unfold AttackRecord.isText at h
    split at h
    · next b hb => exact hall b hb
    · exact absurd h (by decide)
  cases hline : record.line with
  | error e => rfl
  | ok line => exact absurd ⟨line, hline⟩ hbytes

/-- The line of a record is its JSON form. -/
theorem render_of_line {record : AttackRecord} {line : List Char} (h : record.line = .ok line) :
    record.toDict.render false = .ok line := by
  unfold AttackRecord.line at h
  cases hrender : record.toDict.render false with
  | error e =>
    rw [hrender] at h
    cases h
  | ok y =>
    rw [hrender] at h
    cases h
    rfl

theorem flatMap_lines (records : List AttackRecord) :
    records.flatMap (fun record => record.line.toOption.toList) =
      (records.filter AttackRecord.isText).flatMap fun record => record.line.toOption.toList := by
  induction records with
  | nil => rfl
  | cons record records ih =>
    rw [List.flatMap_cons, ih, List.filter_cons]
    cases htext : record.isText with
    | true => rw [if_pos rfl, List.flatMap_cons]
    | false => rw [if_neg (by decide), line_of_not_isText htext, Option.toList_none, List.nil_append]

/-- The lines of records that have one. -/
theorem exists_lines {records : List AttackRecord} (h : ∀ record ∈ records, record.isText = true) :
    ∃ lines, (records.flatMap fun record => record.line.toOption.toList) = lines ∧
      List.Forall₂ (fun record line => record.line = .ok line) records lines := by
  induction records with
  | nil => exact ⟨[], rfl, .nil⟩
  | cons record records ih =>
    obtain ⟨line, hline⟩ := line_of_isText (h record (List.mem_cons_self ..))
    obtain ⟨lines, hlines, hall⟩ := ih fun r hr => h r (List.mem_cons_of_mem _ hr)
    exact ⟨line :: lines, by rw [List.flatMap_cons, hline, hlines]; rfl, .cons hline hall⟩

/-- A line is read as the dictionary of its record. -/
theorem load_line {record : AttackRecord} {line : List Char} (h : record.line = .ok line) :
    Json.load (line ++ ['\n']) = some record.toDict :=
  Json.load_render (render_of_line h) (distinctKeys_toDict record) (by decide)

section

variable {records : List AttackRecord} {lines : List (List Char)}
  (h : List.Forall₂ (fun record line => record.line = .ok line) records lines)

include h

theorem mapM_load_lines :
    (lines.map (· ++ ['\n'])).mapM Json.load = some (records.map AttackRecord.toDict) := by
  induction h with
  | nil => rfl
  | cons hline _ ih =>
    rw [List.map_cons, List.mapM_cons, load_line hline, ih]
    rfl

theorem inline_lines : ∀ line ∈ lines, Json.Inline line := by
  induction h with
  | nil =>
    intro line hline
    cases hline
  | cons hline _ ih =>
    exact List.forall_mem_cons.mpr ⟨Json.inline_render false _ _ (render_of_line hline), ih⟩

/-- Lines of JSON read back one by one. -/
theorem readJsonl_lines :
    readJsonl (Utf8.encode (String.ofList (lines.flatMap (· ++ ['\n'])))) =
      some (records.map AttackRecord.toDict) := by
  have hinline := inline_lines h
  have hnewline : ∀ line ∈ lines, '\n' ∉ line := by
    intro line hline hmem
    exact absurd (hinline line hline _ hmem) (by decide)
  have hreturn : '\r' ∉ lines.flatMap (· ++ ['\n']) := by
    intro hmem
    obtain ⟨line, hline, hr⟩ := List.mem_flatMap.mp hmem
    rcases List.mem_append.mp hr with hr | hr
    · exact absurd (hinline line hline _ hr) (by decide)
    · exact absurd hr (by decide)
  have hdecode := Utf8.decodeStrict_eq_some.mpr
    (rfl : Utf8.encode (String.ofList (lines.flatMap (· ++ ['\n']))) = _)
  rw [readJsonl, hdecode, Option.bind_some, String.toList_ofList, universalNewlines_of_notMem hreturn,
    keepLines_flatMap hnewline, mapM_load_lines h]

end

/-- The capture file reads back as the sessions whose password was text, in the order of their lines,
and what is read determines the records. -/
theorem captureFile_replay (config : HoneypotConfig) (pipelineStarts : Bool)
    (sessions : List (AttackRecord × (Nat → Datetime))) :
    readJsonl (writeSessions p engine config pipelineStarts {} sessions).captureFile =
        some (((sessions.map Prod.fst).filter AttackRecord.isText).map AttackRecord.toDict) ∧
      Function.Injective AttackRecord.toDict := by
  refine ⟨?_, toDict_injective⟩
  obtain ⟨lines, hlines, hall⟩ := exists_lines (fun record hrecord =>
    (List.mem_filter.mp hrecord).2 : ∀ record ∈ (sessions.map Prod.fst).filter AttackRecord.isText, _)
  have hfile : (writeSessions p engine config pipelineStarts {} sessions).jsonl = lines := by
    rw [jsonl_writeSessions, ← hlines, ← flatMap_lines, List.flatMap_map]
    rfl
  rw [Stores.captureFile, hfile]
  exact readJsonl_lines hall

end SentinelSsh.Honeypot

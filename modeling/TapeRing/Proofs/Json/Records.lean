import TapeRing.Json.Codec
import TapeRing.Proofs.Json.Acceptance

/-! # Configurations, summaries and snapshots by their fields -/

namespace TapeRing

/-- What is given for a name, decoded. -/
def Given.read {α : Type} (given : Given) (name : String) (decoder : Decoder α) : Option α :=
  ((given name).map decoder).bind Except.toOption

section Reading

variable {α β : Type} {given : Given} {name : String} {decoder : Decoder β}

theorem Given.read_update_self {value : Json} {b : β} (h : decoder value = .ok b) :
    Given.read (Function.update given name (some value)) name decoder = some b := by
  rw [Given.read, Function.update_self, Option.map_some, h]
  rfl

theorem Given.read_update_of_ne {other : String} (h : name ≠ other) (value : Json) :
    Given.read (Function.update given other (some value)) name decoder =
      given.read name decoder := by
  rw [Given.read, Function.update_of_ne h]
  rfl

theorem Given.read_congr {given' : Given}
    (h : (given name).map decoder = (given' name).map decoder) :
    given.read name decoder = given'.read name decoder := by
  rw [Given.read, h, Given.read]

variable {t : Declaration α} (h : ∀ value, given t.name = some value → t.Accepts value)
include h

/-- A field without a default is missing, or it is read. -/
theorem Given.read_required (hifAbsent : t.ifAbsent = none) :
    t.outcome? given = none ∧ given.read t.name t.decoder = none ∨
      ∃ b, t.outcome? given = some (.ok b) ∧ given.read t.name t.decoder = some b := by
  cases hgiven : given t.name with
  | none =>
    left
    exact ⟨Declaration.outcome?_eq_none_iff.mpr ⟨hgiven, hifAbsent⟩, by simp [Given.read, hgiven]⟩
  | some value =>
    right
    obtain ⟨b, hb⟩ := h value hgiven
    refine ⟨b, ?_, ?_⟩
    · rw [Declaration.outcome?_of_given hgiven, hb]
    · simp [Given.read, hgiven, hb, Except.toOption]

/-- A field with a default is read, or it has its default. -/
theorem Given.read_default {value : Json} (hifAbsent : t.ifAbsent = some value) {b : t.Value}
    (hb : t.decoder value = .ok b) :
    t.outcome? given = some (.ok ((given.read t.name t.decoder).getD b)) := by
  cases hgiven : given t.name with
  | none =>
    rw [Declaration.outcome?_of_absent hgiven hifAbsent, hb]
    simp [Given.read, hgiven]
  | some value' =>
    obtain ⟨b', hb'⟩ := h value' hgiven
    rw [Declaration.outcome?_of_given hgiven, hb']
    simp [Given.read, hgiven, hb', Except.toOption]

omit h in
/-- A field meets its declaration if it puts what it has decoded into the draft. -/
theorem Field.meets_of {σ : Type} {draft : Given → σ} {put : β → σ → σ} {get : α → β}
    {ifAbsent : Option Json} {mayEnd : Bool}
    (hput : ∀ value b given, decoder value = .ok b →
      put b (draft given) = draft (Function.update given name (some value))) :
    (Field.of name decoder put mayEnd).Meets draft ⟨name, decoder, get, ifAbsent, mayEnd⟩ where
  name_eq := rfl
  mayEnd_eq := rfl
  fill_eq value given := by
    simp only [Field.of]
    cases hdecoded : decoder value with
    | error fault => rfl
    | ok b => exact congrArg Except.ok (hput value b given hdecoded)

end Reading

namespace MachineConfig

/-- The fields of a configuration. -/
def declarations : List (Declaration MachineConfig) := [
  { name := "processors", decoder := decodeSize, get := processors, ifAbsent := none,
    mayEnd := false },
  { name := "halt", decoder := HaltPolicy.decode, get := halt,
    ifAbsent := some (.string "first-finished"), mayEnd := true },
  { name := "brackets", decoder := BracketStrategy.decode, get := brackets,
    ifAbsent := some (.string "scan"), mayEnd := true }]

/-- The draft that values lead to. -/
def Draft.of (given : Given) : Draft where
  processors := given.read "processors" decodeSize
  halt := given.read "halt" HaltPolicy.decode
  brackets := given.read "brackets" BracketStrategy.decode

theorem shape_lawful : shape.Lawful declarations Draft.of where
  fields := by
    refine .cons (Field.meets_of ?_) (.cons (Field.meets_of ?_) (.cons (Field.meets_of ?_) .nil))
    all_goals
      intro value b given hvalue
      simp [Draft.of, Given.read_update_self hvalue, Given.read_update_of_ne]
  nodup := by decide
  blank_eq := rfl
  draft_congr given given' halike := by
    simp only [DecodedAlike, declarations, List.forall_mem_cons] at halike
    obtain ⟨hprocessors, hhalt, hbrackets, -⟩ := halike
    simp only [Draft.of, Given.read_congr hprocessors, Given.read_congr hhalt,
      Given.read_congr hbrackets]
  finish_cases given hgood := by
    obtain ⟨hprocessors, hhalt, hbrackets⟩ := List.forall_iff_forall_mem.mpr hgood
    have hhalt := Given.read_default hhalt rfl rfl
    have hbrackets := Given.read_default hbrackets rfl rfl
    rcases Given.read_required hprocessors rfl with ⟨hnone, hread⟩ | ⟨n, hprocessors, hread⟩
    · left
      refine ⟨_, ⟨[], _, rfl, hnone, by simp⟩, ?_⟩
      simp only [shape, Draft.of, hread]
      rfl
    · right
      refine ⟨⟨n, _, _⟩, ?_, List.forall_iff_forall_mem.mp ⟨hprocessors, hhalt, hbrackets⟩⟩
      simp only [shape, Draft.of, hread]
      rfl
  ext data data' hsame := by
    simp only [declarations, List.forall_mem_cons] at hsame
    obtain ⟨hprocessors, hhalt, hbrackets, -⟩ := hsame
    cases data
    cases data'
    simp_all
  accepts_ifAbsent := by
    refine List.forall_iff_forall_mem.mp ⟨?_, ?_, ?_⟩
    · exact fun value hvalue => by cases hvalue
    · exact fun value hvalue => ⟨.firstFinished, by cases hvalue; rfl⟩
    · exact fun value hvalue => ⟨.scan, by cases hvalue; rfl⟩
  ifAbsent_of_mayEnd := by
    simp [declarations]

end MachineConfig

namespace RunSummary

/-- The fields of a summary. -/
def declarations : List (Declaration RunSummary) := [
  { name := "ticks", decoder := decodeTicks, get := ticks, ifAbsent := none, mayEnd := false },
  { name := "halted_on", decoder := Decoder.optional decodeSize, get := haltedOn,
    ifAbsent := some .null, mayEnd := false }]

/-- The draft that values lead to. -/
def Draft.of (given : Given) : Draft where
  ticks := given.read "ticks" decodeTicks
  haltedOn := given.read "halted_on" (Decoder.optional decodeSize)

theorem shape_lawful : shape.Lawful declarations Draft.of where
  fields := by
    refine .cons (Field.meets_of ?_) (.cons (Field.meets_of ?_) .nil)
    all_goals
      intro value b given hvalue
      simp [Draft.of, Given.read_update_self hvalue, Given.read_update_of_ne]
  nodup := by decide
  blank_eq := rfl
  draft_congr given given' halike := by
    simp only [DecodedAlike, declarations, List.forall_mem_cons] at halike
    obtain ⟨hticks, hhaltedOn, -⟩ := halike
    simp only [Draft.of, Given.read_congr hticks, Given.read_congr hhaltedOn]
  finish_cases given hgood := by
    obtain ⟨hticks, hhaltedOn⟩ := List.forall_iff_forall_mem.mpr hgood
    have hhaltedOn := Given.read_default hhaltedOn rfl rfl
    rcases Given.read_required hticks rfl with ⟨hnone, hread⟩ | ⟨n, hticks, hread⟩
    · left
      refine ⟨_, ⟨[], _, rfl, hnone, by simp⟩, ?_⟩
      simp only [shape, Draft.of, hread]
      rfl
    · right
      refine ⟨⟨n, _⟩, ?_, List.forall_iff_forall_mem.mp ⟨hticks, hhaltedOn⟩⟩
      simp only [shape, Draft.of, hread]
      rfl
  ext data data' hsame := by
    simp only [declarations, List.forall_mem_cons] at hsame
    obtain ⟨hticks, hhaltedOn, -⟩ := hsame
    cases data
    cases data'
    simp_all
  accepts_ifAbsent := by
    refine List.forall_iff_forall_mem.mp ⟨?_, ?_⟩
    · exact fun value hvalue => by cases hvalue
    · exact fun value hvalue => ⟨none, by cases hvalue; rfl⟩
  ifAbsent_of_mayEnd := by
    simp [declarations]

end RunSummary

namespace ProcessorSnapshot

/-- The fields of a processor's snapshot. -/
def declarations : List (Declaration ProcessorSnapshot) := [
  { name := "id", decoder := decodeSize, get := id, ifAbsent := none, mayEnd := false },
  { name := "program", decoder := Decoder.text, get := program, ifAbsent := none,
    mayEnd := false },
  { name := "instruction_pointer", decoder := decodeSize, get := instructionPointer,
    ifAbsent := none, mayEnd := false },
  { name := "data_pointer", decoder := decodeSize, get := dataPointer, ifAbsent := none,
    mayEnd := false },
  { name := "finished", decoder := Decoder.boolean, get := finished, ifAbsent := none,
    mayEnd := false },
  { name := "tape", decoder := Decoder.list decodeCell, get := tape,
    ifAbsent := some (.array []), mayEnd := true }]

/-- The draft that values lead to. -/
def Draft.of (given : Given) : Draft where
  id := given.read "id" decodeSize
  program := given.read "program" Decoder.text
  instructionPointer := given.read "instruction_pointer" decodeSize
  dataPointer := given.read "data_pointer" decodeSize
  finished := given.read "finished" Decoder.boolean
  tape := given.read "tape" (Decoder.list decodeCell)

theorem shape_lawful : shape.Lawful declarations Draft.of where
  fields := by
    refine .cons (Field.meets_of ?_) (.cons (Field.meets_of ?_) (.cons (Field.meets_of ?_)
      (.cons (Field.meets_of ?_) (.cons (Field.meets_of ?_) (.cons (Field.meets_of ?_) .nil)))))
    all_goals
      intro value b given hvalue
      simp [Draft.of, Given.read_update_self hvalue, Given.read_update_of_ne]
  nodup := by decide
  blank_eq := rfl
  draft_congr given given' halike := by
    simp only [DecodedAlike, declarations, List.forall_mem_cons] at halike
    obtain ⟨hid, hprogram, hip, hdp, hfinished, htape, -⟩ := halike
    simp only [Draft.of, Given.read_congr hid, Given.read_congr hprogram, Given.read_congr hip,
      Given.read_congr hdp, Given.read_congr hfinished, Given.read_congr htape]
  finish_cases given hgood := by
    obtain ⟨hid, hprogram, hip, hdp, hfinished, htape⟩ := List.forall_iff_forall_mem.mpr hgood
    have htape := Given.read_default htape rfl rfl
    -- The fields are settled in the order of declaration, up to the first one that is missing.
    rcases Given.read_required hid rfl with ⟨hnone, hread⟩ | ⟨id, hid, hreadId⟩
    · left
      refine ⟨_, ⟨[], _, rfl, hnone, by simp⟩, ?_⟩
      simp only [shape, Draft.of, hread]
      rfl
    rcases Given.read_required hprogram rfl with ⟨hnone, hread⟩ | ⟨program, hprogram, hreadProgram⟩
    · left
      refine ⟨_, ⟨[_], _, rfl, hnone, by simp [hid]⟩, ?_⟩
      simp only [shape, Draft.of, hreadId, hread]
      rfl
    rcases Given.read_required hip rfl with ⟨hnone, hread⟩ | ⟨ip, hip, hreadIp⟩
    · left
      refine ⟨_, ⟨[_, _], _, rfl, hnone, by simp [hid, hprogram]⟩, ?_⟩
      simp only [shape, Draft.of, hreadId, hreadProgram, hread]
      rfl
    rcases Given.read_required hdp rfl with ⟨hnone, hread⟩ | ⟨dp, hdp, hreadDp⟩
    · left
      refine ⟨_, ⟨[_, _, _], _, rfl, hnone, by simp [hid, hprogram, hip]⟩, ?_⟩
      simp only [shape, Draft.of, hreadId, hreadProgram, hreadIp, hread]
      rfl
    rcases Given.read_required hfinished rfl with
      ⟨hnone, hread⟩ | ⟨finished, hfinished, hreadFinished⟩
    · left
      refine ⟨_, ⟨[_, _, _, _], _, rfl, hnone, by simp [hid, hprogram, hip, hdp]⟩, ?_⟩
      simp only [shape, Draft.of, hreadId, hreadProgram, hreadIp, hreadDp, hread]
      rfl
    right
    refine ⟨⟨id, program, ip, dp, finished, _⟩, ?_, List.forall_iff_forall_mem.mp
      ⟨hid, hprogram, hip, hdp, hfinished, htape⟩⟩
    simp only [shape, Draft.of, hreadId, hreadProgram, hreadIp, hreadDp, hreadFinished]
    rfl
  ext data data' hsame := by
    simp only [declarations, List.forall_mem_cons] at hsame
    obtain ⟨hid, hprogram, hip, hdp, hfinished, htape, -⟩ := hsame
    cases data
    cases data'
    simp_all
  accepts_ifAbsent := by
    refine List.forall_iff_forall_mem.mp ⟨?_, ?_, ?_, ?_, ?_, ?_⟩
    on_goal 6 => exact fun value hvalue => ⟨[], by cases hvalue; rfl⟩
    all_goals exact fun value hvalue => by cases hvalue
  ifAbsent_of_mayEnd := by
    simp [declarations]

end ProcessorSnapshot

namespace MachineSnapshot

/-- The fields of a machine's snapshot. -/
def declarations : List (Declaration MachineSnapshot) := [
  { name := "config", decoder := MachineConfig.decode, get := config, ifAbsent := none,
    mayEnd := false },
  { name := "ticks", decoder := decodeTicks, get := ticks, ifAbsent := none, mayEnd := false },
  { name := "processors", decoder := Decoder.list ProcessorSnapshot.decode, get := processors,
    ifAbsent := none, mayEnd := false }]

/-- The draft that values lead to. -/
def Draft.of (given : Given) : Draft where
  config := given.read "config" MachineConfig.decode
  ticks := given.read "ticks" decodeTicks
  processors := given.read "processors" (Decoder.list ProcessorSnapshot.decode)

theorem shape_lawful : shape.Lawful declarations Draft.of where
  fields := by
    refine .cons (Field.meets_of ?_) (.cons (Field.meets_of ?_) (.cons (Field.meets_of ?_) .nil))
    all_goals
      intro value b given hvalue
      simp [Draft.of, Given.read_update_self hvalue, Given.read_update_of_ne]
  nodup := by decide
  blank_eq := rfl
  draft_congr given given' halike := by
    simp only [DecodedAlike, declarations, List.forall_mem_cons] at halike
    obtain ⟨hconfig, hticks, hprocessors, -⟩ := halike
    simp only [Draft.of, Given.read_congr hconfig, Given.read_congr hticks,
      Given.read_congr hprocessors]
  finish_cases given hgood := by
    obtain ⟨hconfig, hticks, hprocessors⟩ := List.forall_iff_forall_mem.mpr hgood
    rcases Given.read_required hconfig rfl with ⟨hnone, hread⟩ | ⟨config, hconfig, hreadConfig⟩
    · left
      refine ⟨_, ⟨[], _, rfl, hnone, by simp⟩, ?_⟩
      simp only [shape, Draft.of, hread]
      rfl
    rcases Given.read_required hticks rfl with ⟨hnone, hread⟩ | ⟨ticks, hticks, hreadTicks⟩
    · left
      refine ⟨_, ⟨[_], _, rfl, hnone, by simp [hconfig]⟩, ?_⟩
      simp only [shape, Draft.of, hreadConfig, hread]
      rfl
    rcases Given.read_required hprocessors rfl with
      ⟨hnone, hread⟩ | ⟨processors, hprocessors, hreadProcessors⟩
    · left
      refine ⟨_, ⟨[_, _], _, rfl, hnone, by simp [hconfig, hticks]⟩, ?_⟩
      simp only [shape, Draft.of, hreadConfig, hreadTicks, hread]
      rfl
    right
    refine ⟨⟨config, ticks, processors⟩, ?_, List.forall_iff_forall_mem.mp
      ⟨hconfig, hticks, hprocessors⟩⟩
    simp only [shape, Draft.of, hreadConfig, hreadTicks, hreadProcessors]
    rfl
  ext data data' hsame := by
    simp only [declarations, List.forall_mem_cons] at hsame
    obtain ⟨hconfig, hticks, hprocessors, -⟩ := hsame
    cases data
    cases data'
    simp_all
  accepts_ifAbsent := by
    refine List.forall_iff_forall_mem.mp ⟨?_, ?_, ?_⟩
    all_goals exact fun value hvalue => by cases hvalue
  ifAbsent_of_mayEnd := by
    simp [declarations]

end MachineSnapshot

end TapeRing

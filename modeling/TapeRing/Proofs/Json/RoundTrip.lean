import TapeRing.Channel.Sink
import TapeRing.Channel.Source
import TapeRing.Proofs.Json.Records
import TapeRing.Proofs.Json.Text
import TapeRing.Proofs.Json.Values
import TapeRing.Proofs.Machine.Reachable

/-! # Round trips through JSON

Configurations, summaries and snapshots whose numbers fit their types are decoded from their own
JSON (`decode_toJson`), and nothing else is ever decoded (`fits_of_decode`). So they can be read
back from their texts, which tell them apart (`RoundTrips`). The snapshot of a machine fits as long
as its counts do, since no tape has more cells than there were ticks, and one to start with
(`Reaches.size_le`). -/

namespace TapeRing

/-- A count or an index of 64 bits. -/
def FitsSize (n : Nat) : Prop := n < UInt64.size

instance (n : Nat) : Decidable (FitsSize n) :=
  inferInstanceAs (Decidable (n < UInt64.size))

/-- A cell of 32 bits with a sign. -/
def FitsCell (x : Int) : Prop := Int32.minValue.toInt ≤ x ∧ x ≤ Int32.maxValue.toInt

def MachineConfig.Fits (c : MachineConfig) : Prop :=
  FitsSize c.processors

structure RunSummary.Fits (s : RunSummary) : Prop where
  ticks : FitsSize s.ticks
  haltedOn : ∀ p, s.haltedOn = some p → FitsSize p

structure ProcessorSnapshot.Fits (s : ProcessorSnapshot) : Prop where
  id : FitsSize s.id
  instructionPointer : FitsSize s.instructionPointer
  dataPointer : FitsSize s.dataPointer
  tape : ∀ x ∈ s.tape, FitsCell x

structure MachineSnapshot.Fits (s : MachineSnapshot) : Prop where
  config : s.config.Fits
  ticks : FitsSize s.ticks
  processors : ∀ p ∈ s.processors, p.Fits

theorem decodeSize_ofNat {n : Nat} (h : FitsSize n) : decodeSize (.ofNat n) = .ok n :=
  decodeSize_eq_ok_iff.mpr ⟨rfl, h⟩

theorem decodeTicks_ofNat {n : Nat} (h : FitsSize n) : decodeTicks (.ofNat n) = .ok n :=
  decodeTicks_eq_ok_iff.mpr ⟨rfl, h⟩

/-- A member with the value of a field is read as this field. -/
theorem Declaration.reads_of_member {α : Type} {members : List (String × Json)} {data : α}
    {t : Declaration α} {value : Json} (hvalue : givenBy members t.name = some value)
    (hdecoded : t.decoder value = .ok (t.get data)) : t.Reads (givenBy members) data := by
  rw [Declaration.Reads, Declaration.outcome?_of_given hvalue, hdecoded]

namespace MachineConfig

theorem decode_toJson {c : MachineConfig} (h : c.Fits) : decode c.toJson = .ok c := by
  apply (shape_lawful.follows.reads _ _).mpr
  refine List.forall_iff_forall_mem.mp ⟨?_, ?_, ?_⟩
  · refine Declaration.reads_of_member rfl ?_
    dsimp only
    exact decodeSize_ofNat h
  · refine Declaration.reads_of_member rfl ?_
    exact HaltPolicy.decode_eq_ok_iff.mpr (.inl rfl)
  · refine Declaration.reads_of_member rfl ?_
    exact BracketStrategy.decode_eq_ok_iff.mpr (.inl rfl)

theorem fits_of_decode {v : Json} {c : MachineConfig} (h : decode v = .ok c) : c.Fits := by
  obtain ⟨⟨value, hprocessors⟩, -, -⟩ :=
    List.forall_iff_forall_mem.mpr (shape_lawful.exists_value_of_decode h)
  exact (decodeSize_eq_ok_iff.mp hprocessors).2

end MachineConfig

namespace RunSummary

theorem decode_toJson {s : RunSummary} (h : s.Fits) : decode s.toJson = .ok s := by
  apply (shape_lawful.follows.reads _ _).mpr
  refine List.forall_iff_forall_mem.mp ⟨?_, ?_⟩
  · refine Declaration.reads_of_member rfl ?_
    dsimp only
    exact decodeTicks_ofNat h.ticks
  · refine Declaration.reads_of_member rfl (decodeHaltedOn_eq_ok_iff.mpr ?_)
    cases hon : s.haltedOn with
    | none => exact .inl ⟨rfl, hon⟩
    | some p => exact .inr ⟨p, hon, rfl, h.haltedOn p hon⟩

theorem fits_of_decode {v : Json} {s : RunSummary} (h : decode v = .ok s) : s.Fits := by
  obtain ⟨⟨value, hticks⟩, ⟨value', hhaltedOn⟩⟩ :=
    List.forall_iff_forall_mem.mpr (shape_lawful.exists_value_of_decode h)
  refine ⟨(decodeTicks_eq_ok_iff.mp hticks).2, ?_⟩
  intro p hp
  rcases decodeHaltedOn_eq_ok_iff.mp hhaltedOn with ⟨-, hnone⟩ | ⟨p', hsome, -, hlt⟩
  · cases hp.symm.trans hnone
  · cases hp.symm.trans hsome
    exact hlt

end RunSummary

namespace ProcessorSnapshot

theorem decode_toJson {s : ProcessorSnapshot} (h : s.Fits) : decode s.toJson = .ok s := by
  apply (shape_lawful.follows.reads _ _).mpr
  refine List.forall_iff_forall_mem.mp ⟨?_, ?_, ?_, ?_, ?_, ?_⟩
  · refine Declaration.reads_of_member rfl ?_
    dsimp only
    exact decodeSize_ofNat h.id
  · refine Declaration.reads_of_member rfl ?_
    exact Decoder.text_eq_ok_iff.mpr rfl
  · refine Declaration.reads_of_member rfl ?_
    dsimp only
    exact decodeSize_ofNat h.instructionPointer
  · refine Declaration.reads_of_member rfl ?_
    dsimp only
    exact decodeSize_ofNat h.dataPointer
  · refine Declaration.reads_of_member rfl ?_
    exact Decoder.boolean_eq_ok_iff.mpr rfl
  · refine Declaration.reads_of_member rfl ?_
    exact decodeCells_eq_ok_iff.mpr ⟨rfl, h.tape⟩

theorem fits_of_decode {v : Json} {s : ProcessorSnapshot} (h : decode v = .ok s) : s.Fits := by
  obtain ⟨⟨_, hid⟩, -, ⟨_, hip⟩, ⟨_, hdp⟩, -, ⟨_, htape⟩⟩ :=
    List.forall_iff_forall_mem.mpr (shape_lawful.exists_value_of_decode h)
  exact ⟨(decodeSize_eq_ok_iff.mp hid).2, (decodeSize_eq_ok_iff.mp hip).2,
    (decodeSize_eq_ok_iff.mp hdp).2, (decodeCells_eq_ok_iff.mp htape).2⟩

end ProcessorSnapshot

namespace MachineSnapshot

theorem decode_toJson {s : MachineSnapshot} (h : s.Fits) : decode s.toJson = .ok s := by
  apply (shape_lawful.follows.reads _ _).mpr
  refine List.forall_iff_forall_mem.mp ⟨?_, ?_, ?_⟩
  · refine Declaration.reads_of_member rfl ?_
    exact MachineConfig.decode_toJson h.config
  · refine Declaration.reads_of_member rfl ?_
    dsimp only
    exact decodeTicks_ofNat h.ticks
  · refine Declaration.reads_of_member rfl (Decoder.list_eq_ok_iff.mpr ⟨_, rfl, ?_⟩)
    rw [List.forall₂_map_left_iff, List.forall₂_same]
    exact fun p hp => ProcessorSnapshot.decode_toJson (h.processors p hp)

theorem fits_of_decode {v : Json} {s : MachineSnapshot} (h : decode v = .ok s) : s.Fits := by
  obtain ⟨⟨_, hconfig⟩, ⟨_, hticks⟩, ⟨_, hprocessors⟩⟩ :=
    List.forall_iff_forall_mem.mpr (shape_lawful.exists_value_of_decode h)
  refine ⟨MachineConfig.fits_of_decode hconfig, (decodeTicks_eq_ok_iff.mp hticks).2, ?_⟩
  obtain ⟨items, -, hitems⟩ := Decoder.list_eq_ok_iff.mp hprocessors
  have hfits : List.Forall₂ (fun p item => p.Fits ∧ ProcessorSnapshot.decode item = .ok p)
      s.processors items :=
    hitems.flip.imp fun p item hitem => ⟨ProcessorSnapshot.fits_of_decode hitem, hitem⟩
  exact ((List.forall₂_and_left _ _).mp hfits).1

end MachineSnapshot

/-- What is written is read back, as JSON and as text. -/
structure RoundTrips {α : Type} (toJson : α → Json) (decode : Decoder α) (Fits : α → Prop) :
    Prop where
  /-- Data are decoded from their own JSON. -/
  decode_toJson : ∀ x, Fits x → decode (toJson x) = .ok x
  /-- Data are read from their own text. -/
  decode_text : ∀ x, Fits x → (Json.parse (toJson x).compact).map decode = some (.ok x)
  /-- Different data have different texts. -/
  text_injective : ∀ x y, Fits x → Fits y → (toJson x).compact = (toJson y).compact → x = y
  /-- Whatever data are decoded from, they fit, and they are decoded from their own JSON. -/
  redecode : ∀ v x, decode v = .ok x → Fits x ∧ decode (toJson x) = .ok x

theorem roundTrips_of {α : Type} {toJson : α → Json} {decode : Decoder α} {Fits : α → Prop}
    (hdecode : ∀ x, Fits x → decode (toJson x) = .ok x)
    (hfits : ∀ v x, decode v = .ok x → Fits x) : RoundTrips toJson decode Fits where
  decode_toJson := hdecode
  decode_text x hx := by rw [Json.compact, Json.parse_textIn, Option.map_some, hdecode x hx]
  text_injective x y hx hy htext := by
    have hjson : toJson x = toJson y := by
      apply Option.some.inj
      rw [← Json.parse_textIn .compact, ← Json.parse_textIn .compact]
      exact congrArg Json.parse htext
    apply Except.ok.inj
    rw [← hdecode x hx, hjson, hdecode y hy]
  redecode v x hv := ⟨hfits v x hv, hdecode x (hfits v x hv)⟩

/-! ## Machines -/

theorem Processor.Successor.size_le {p q : Processor} {op : Op} (h : p.Successor op q) :
    q.tape.size ≤ p.tape.size + 1 := by
  cases h with
  | increment htape => exact Nat.le_succ_of_le (Nat.le_of_eq (Tape.size_of_update_eq_ok htape))
  | decrement htape => exact Nat.le_succ_of_le (Nat.le_of_eq (Tape.size_of_update_eq_ok htape))
  | left => unfold moveLeft; split <;> simp [next]
  | right => unfold moveRight; split <;> simp [next]
  | store htape => exact Nat.le_succ_of_le (Nat.le_of_eq (Tape.size_of_write_eq_ok htape))
  | _ => exact Nat.le_succ _

theorem Processor.size_tick_le {κ σ : Type} [ByteSink κ] [ByteSource σ] (p : Processor)
    (channels : Channels κ σ) : (p.tick channels).state.tape.size ≤ p.tape.size + 1 := by
  rcases tick_cases p channels with heq | ⟨op, -, hnext⟩
  · rw [heq]
    exact Nat.le_succ _
  · exact hnext.size_le

namespace Machine

variable {config : MachineConfig} {source : String} {start m : Machine}

/-- No tape has more cells than one for each tick, and one to start with. -/
theorem Reaches.size_le (hstart : assemble config source = .ok start) (h : Reaches start m) :
    ∀ p ∈ m.processors, p.tape.size ≤ m.ticks + 1 := by
  obtain ⟨-, rfl⟩ := assemble_eq_ok_iff.mp hstart
  refine @Reaches.invariant (fun m => ∀ p ∈ m.processors, p.tape.size ≤ m.ticks + 1) ?_ _ _ h ?_
  · intro κ σ _ _ m channels hm
    rcases step_cases m channels with ⟨on, -, heq⟩ | ⟨index, p, -, hp, ⟨-, heq⟩ | ⟨fault, -, heq⟩⟩
    · rw [heq]
      exact hm
    · rw [heq]
      intro q hq
      rcases List.mem_or_eq_of_mem_set hq with hq | rfl
      · exact Nat.le_succ_of_le (hm q hq)
      · -- Only the processor at the cursor moves on, and the machine counts its tick.
        have hgrown := p.size_tick_le channels
        have hbefore := hm p (List.mem_of_getElem? hp)
        show _ ≤ m.ticks + 1 + 1
        omega
    · rw [heq]
      exact hm
  · intro p hp
    obtain ⟨index, -, rfl⟩ := List.mem_map.mp hp
    exact Nat.le_refl 1

theorem fitsCell_of_cellValue {x : Int} (h : CellValue x) : FitsCell x := by
  obtain ⟨hlow, hhigh⟩ := h
  have hleast : Int32.minValue.toInt ≤ 0 := by decide
  have hgreatest : cellMax + 1 ≤ Int32.maxValue.toInt := by decide
  exact ⟨Int.le_trans hleast hlow, Int.le_trans hhigh hgreatest⟩

/-- The snapshots of reachable machines have numbers that fit, if those that the machine is
    assembled from and the count of its ticks do. -/
theorem Reaches.fits_snapshot (hstart : assemble config source = .ok start) (h : Reaches start m)
    (hprocessors : FitsSize config.processors) (hsource : FitsSize source.length)
    (hticks : FitsSize m.ticks) : m.snapshot.Fits := by
  have hsound := h.sound hstart
  refine ⟨?_, hticks, ?_⟩
  · show FitsSize m.config.processors
    rwa [hsound.config_eq]
  · intro s hs
    obtain ⟨p, hp, rfl⟩ := List.mem_map.mp hs
    obtain ⟨index, hindex, hget⟩ := List.getElem_of_mem hp
    obtain ⟨hid, hprogram⟩ :=
      hsound.dealt_of_getElem? (List.getElem?_eq_some_iff.mpr ⟨hindex, hget⟩)
    have hp' := hsound.sound p hp
    have hlength : p.program.length ≤ source.length := by
      rw [hprogram, ← String.length_toList]
      exact Nat.le_trans (Program.length_part_le _ _ _) (List.length_filterMap_le _ _)
    have hindex' : index < config.processors := by rwa [← hsound.length_processors]
    have hsize := h.size_le hstart p hp
    have hdp := hp'.dp_lt
    refine ⟨?_, ?_, ?_, fun x hx => fitsCell_of_cellValue (hp'.bounded x hx)⟩
    · show p.id < UInt64.size
      rw [hid]
      exact Nat.lt_trans hindex' hprocessors
    · exact Nat.lt_of_le_of_lt (Nat.le_trans hp'.ip_le hlength) hsource
    · exact Nat.lt_of_le_of_lt (show p.dp ≤ m.ticks by omega) hticks

/-- Configurations, summaries and snapshots are read back from their JSON and from its text, and so
    is the snapshot of every machine that can be reached. -/
theorem json_round_trips :
    RoundTrips MachineConfig.toJson MachineConfig.decode MachineConfig.Fits ∧
      RoundTrips RunSummary.toJson RunSummary.decode RunSummary.Fits ∧
      RoundTrips ProcessorSnapshot.toJson ProcessorSnapshot.decode ProcessorSnapshot.Fits ∧
      RoundTrips MachineSnapshot.toJson MachineSnapshot.decode MachineSnapshot.Fits ∧
      ∀ (config : MachineConfig) (source : String) (start m : Machine),
        assemble config source = .ok start → Reaches start m →
        FitsSize config.processors → FitsSize source.length → FitsSize m.ticks →
          m.snapshot.Fits ∧ MachineSnapshot.decode m.snapshot.toJson = .ok m.snapshot ∧
          (Json.parse m.snapshot.toJson.compact).map MachineSnapshot.decode =
            some (.ok m.snapshot) := by
  have hsnapshot : RoundTrips MachineSnapshot.toJson MachineSnapshot.decode MachineSnapshot.Fits :=
    roundTrips_of (fun _ => MachineSnapshot.decode_toJson) fun _ _ =>
      MachineSnapshot.fits_of_decode
  refine ⟨?_, ?_, ?_, hsnapshot, ?_⟩
  · exact roundTrips_of (fun _ => MachineConfig.decode_toJson) fun _ _ =>
      MachineConfig.fits_of_decode
  · exact roundTrips_of (fun _ => RunSummary.decode_toJson) fun _ _ => RunSummary.fits_of_decode
  · exact roundTrips_of (fun _ => ProcessorSnapshot.decode_toJson) fun _ _ =>
      ProcessorSnapshot.fits_of_decode
  · intro config source start m hstart hreached hprocessors hsource hticks
    have hfits := hreached.fits_snapshot hstart hprocessors hsource hticks
    exact ⟨hfits, hsnapshot.decode_toJson _ hfits, hsnapshot.decode_text _ hfits⟩

/-- A machine of two processors after the first byte has been read. -/
theorem json_round_trips_on_reader :
    let config : MachineConfig := { processors := 2, halt := .allFinished }
    let channels : Channels ByteBuffer SliceSource := ⟨ByteBuffer.empty, ⟨[7]⟩⟩
    ∃ start m, assemble config ",+\n." = .ok start ∧ Reaches start m ∧
      m = (start.step channels).state ∧ m.ticks = 1 ∧
      (Json.parse m.snapshot.toJson.compact).map MachineSnapshot.decode =
        some (.ok m.snapshot) := by
  intro config channels
  have hstart : assemble config ",+\n." = .ok (fresh config ",+\n.") :=
    assemble_of_pos (by decide) _
  have hreached := (Reaches.start : Reaches (fresh config ",+\n.") _).stepped channels
  obtain ⟨-, -, -, -, hreaches⟩ := json_round_trips
  obtain ⟨-, -, htext⟩ := hreaches _ _ _ _ hstart hreached (by decide) (by decide) (by decide)
  exact ⟨_, _, hstart, hreached, rfl, rfl, htext⟩

end Machine

end TapeRing

import TapeRing.Proofs.Json.Records
import TapeRing.Proofs.Json.Values

/-! # Names in two spellings

A policy or a strategy may be written as a string or as the key of null. `Json.AlikeIn` relates
values that differ in what stands for some of their fields, and lawful shapes decode such values
alike if the fields are decoded alike (`Lawful.decode_alikeIn`). So the spelling makes no difference
in a configuration, nor in the configuration of a snapshot.

`decoders_follow_declarations` puts together what is known of the four decoders. -/

namespace TapeRing

namespace Json

/-- Two values that give the same name. -/
def SameName (v v' : Json) : Prop :=
  ∃ name, v.Names name ∧ v'.Names name

/-- Objects with the same keys, or arrays of the same length, whose values are related by the names
    they have. -/
inductive AlikeIn (names : List String) (alike : String → Json → Json → Prop) : Json → Json → Prop
  | object {members members' : List (String × Json)} :
      List.Forall₂ (fun m m' => m.1 = m'.1 ∧ alike m.1 m.2 m'.2) members members' →
        AlikeIn names alike (.object members) (.object members')
  | array {items items' : List Json} : items.length = items'.length →
      (∀ p ∈ names.zip (items.zip items'), alike p.1 p.2.1 p.2.2) →
        AlikeIn names alike (.array items) (.array items')

end Json

theorem Decoder.variant_of_names {α : Type} {known : List (String × α)} {v : Json} {name : String}
    (h : v.Names name) : variant known v = lookUp known name := by
  rcases h with rfl | ⟨members, rfl, hsorted⟩
  · rfl
  · simp only [variant, hsorted, lookUpUnit]
    cases lookUp known name <;> rfl

theorem Decoder.variant_of_sameName {α : Type} {known : List (String × α)} {v v' : Json}
    (h : v.SameName v') : variant known v = variant known v' := by
  obtain ⟨name, hname, hname'⟩ := h
  rw [variant_of_names hname, variant_of_names hname']

section

variable {α : Type} {table : List (Declaration α)} {alike : String → Json → Json → Prop}

theorem decodedAlike_give (halike : ∀ t ∈ table, ∀ v v', alike t.name v v' →
      t.decoder v = t.decoder v') {members members' : List (String × Json)}
    (h : List.Forall₂ (fun m m' => m.1 = m'.1 ∧ alike m.1 m.2 m'.2) members members') :
    ∀ {given given' : Given}, DecodedAlike table given given' →
      DecodedAlike table (given.give members) (given'.give members') := by
  induction h with
  | nil => exact fun hgiven => hgiven
  | @cons m m' members members' hm hrest ih =>
    intro given given' hgiven
    obtain ⟨key, value⟩ := m
    obtain ⟨key', value'⟩ := m'
    obtain ⟨rfl, hvalue⟩ := hm
    apply ih
    apply hgiven.update
    rintro t ht rfl
    exact halike t ht value value' hvalue

/-- Values that are decoded alike field by field are decoded alike. -/
theorem Shape.Lawful.decode_alikeIn {σ : Type} {shape : Shape σ α} {draft : Given → σ}
    (h : shape.Lawful table draft)
    (halike : ∀ t ∈ table, ∀ v v', alike t.name v v' → t.decoder v = t.decoder v') {v v' : Json}
    (hv : v.AlikeIn (table.map Declaration.name) alike v') : shape.decode v = shape.decode v' := by
  cases hv with
  | @object members members' hmembers =>
    apply h.decode_congr
    intro t ht
    have hgiven : DecodedAlike table (givenBy members) (givenBy members') := by
      rw [← give_none, ← give_none]
      exact decodedAlike_give halike hmembers fun t ht => rfl
    rw [Declaration.outcome?, Declaration.value?, Option.map_or, hgiven t ht, ← Option.map_or]
    rfl
  | @array items items' hlength hitems =>
    have hzip : ∀ p ∈ table.zip (items.zip items'), p.1.decoder p.2.1 = p.1.decoder p.2.2 := by
      intro p hp
      apply halike p.1 (List.of_mem_zip hp).1
      apply hitems (p.1.name, p.2)
      rw [List.zip_map_left]
      exact List.mem_map_of_mem hp
    rw [Shape.decode, Shape.decode, hlength, ← h.blank_eq,
      h.fillItems_congr _ h.fields (fun t ht => ht) 0 items items' _ _ hlength hzip
        fun t ht => rfl]

end

/-- Configurations that differ only in how the policy and the strategy are written. -/
def MachineConfig.SameSpelt : Json → Json → Prop :=
  Json.AlikeIn ["processors", "halt", "brackets"] fun name v v' =>
    v = v' ∨ (name = "halt" ∨ name = "brackets") ∧ v.SameName v'

/-- Snapshots that differ only in how the policy and the strategy are written. -/
def MachineSnapshot.SameSpelt : Json → Json → Prop :=
  Json.AlikeIn ["config", "ticks", "processors"] fun name v v' =>
    v = v' ∨ name = "config" ∧ MachineConfig.SameSpelt v v'

theorem MachineConfig.decode_of_sameSpelt {v v' : Json} (h : SameSpelt v v') :
    decode v = decode v' := by
  apply shape_lawful.decode_alikeIn _ h
  refine List.forall_iff_forall_mem.mp ⟨?_, ?_, ?_⟩
  · rintro v v' (rfl | ⟨hname | hname, -⟩)
    · rfl
    all_goals simp at hname
  · rintro v v' (rfl | ⟨-, hsame⟩)
    · rfl
    · exact Decoder.variant_of_sameName hsame
  · rintro v v' (rfl | ⟨-, hsame⟩)
    · rfl
    · exact Decoder.variant_of_sameName hsame

theorem MachineSnapshot.decode_of_sameSpelt {v v' : Json} (h : SameSpelt v v') :
    decode v = decode v' := by
  apply shape_lawful.decode_alikeIn _ h
  refine List.forall_iff_forall_mem.mp ⟨?_, ?_, ?_⟩
  · rintro v v' (rfl | ⟨-, hsame⟩)
    · rfl
    · exact MachineConfig.decode_of_sameSpelt hsame
  · rintro v v' (rfl | ⟨hname, -⟩)
    · rfl
    · simp at hname
  · rintro v v' (rfl | ⟨hname, -⟩)
    · rfl
    · simp at hname

/-- Configurations, summaries and snapshots are decoded as their fields are declared: which objects
    and arrays are taken, to which data, with which fault otherwise, and that the spelling of a
    policy or a strategy makes no difference. -/
theorem decoders_follow_declarations :
    Decoder.Follows MachineConfig.decode MachineConfig.declarations ∧
      Decoder.Follows RunSummary.decode RunSummary.declarations ∧
      Decoder.Follows ProcessorSnapshot.decode ProcessorSnapshot.declarations ∧
      Decoder.Follows MachineSnapshot.decode MachineSnapshot.declarations ∧
      ValidValues ∧
      (∀ items s, RunSummary.decode (.array items) = .ok s → items.length = 2) ∧
      (∀ v v', MachineConfig.SameSpelt v v' → MachineConfig.decode v = MachineConfig.decode v') ∧
      ∀ v v', MachineSnapshot.SameSpelt v v' →
        MachineSnapshot.decode v = MachineSnapshot.decode v' := by
  have hsummary := RunSummary.shape_lawful.follows
  refine ⟨MachineConfig.shape_lawful.follows, hsummary, ProcessorSnapshot.shape_lawful.follows,
    MachineSnapshot.shape_lawful.follows, validValues, ?_,
    fun v v' => MachineConfig.decode_of_sameSpelt, fun v v' => MachineSnapshot.decode_of_sameSpelt⟩
  intro items s hs
  obtain ⟨hlength, -, hend⟩ := (hsummary.array_ok_iff items).mp ⟨s, hs⟩
  -- No field of a summary may be left out at the end of an array.
  have hnone : RunSummary.declarations.drop items.length = [] := by
    rw [List.eq_nil_iff_forall_not_mem]
    intro t ht
    have hmayEnd := hend t ht
    have hmem := List.mem_of_mem_drop ht
    simp only [RunSummary.declarations, List.mem_cons, List.not_mem_nil, or_false] at hmem
    rcases hmem with rfl | rfl <;> cases hmayEnd
  exact Nat.le_antisymm hlength (List.drop_eq_nil_iff.mp hnone)

theorem decoders_follow_declarations_on_short_array :
    MachineConfig.decode (.object [("brackets", .string "scan"), ("halt", .string "all-finished"),
      ("processors", .ofNat 2)]) = .ok ⟨2, .allFinished, .scan⟩ ∧
    MachineConfig.decode (.array [.ofNat 2, .string "all-finished"]) =
      .ok ⟨2, .allFinished, .scan⟩ := by
  have hobject : MachineConfig.decode (.object [("brackets", .string "scan"),
      ("halt", .string "all-finished"), ("processors", .ofNat 2)]) =
        .ok ⟨2, .allFinished, .scan⟩ := by
    rfl
  refine ⟨hobject, decoders_follow_declarations.1.array _ _ _ _ _
    (List.take_append_drop 2 MachineConfig.declarations).symm ?_ ?_ hobject⟩
  · exact .cons rfl (.cons rfl .nil)
  · rintro t (_ | ⟨_, ⟨⟩⟩)
    exact ⟨rfl, .string "scan", rfl, .string "scan", rfl, rfl⟩

end TapeRing

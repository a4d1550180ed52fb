import Mathlib.Data.List.Forall2
import TapeRing.Json.Codec
import TapeRing.Proofs.Json.Members

/-! # What the values of fields may be

Each decoder of a value takes the values of one kind and of one range, and nothing else. A name is
taken as a string, or as the only key of an object whose value is null (`ValidValues`). -/

namespace TapeRing

/-- A value that gives a name. -/
def Json.Names (v : Json) (name : String) : Prop :=
  v = .string name ∨ ∃ members, v = .object members ∧ sortMembers members = [(name, .null)]

namespace Decoder

variable {α : Type} {v : Json}

theorem intIn_eq_ok_iff {least greatest : Int} (hleast : Int64.minValue.toInt ≤ least)
    (hgreatest : greatest < UInt64.size) {expected : String} {n : Int} :
    intIn least greatest expected v = .ok n ↔ v = .ofInt n ∧ least ≤ n ∧ n ≤ greatest := by
  cases v with
  | number value =>
    cases value with
    | integer m =>
      simp only [intIn, Json.integer?, Json.ofInt, Json.number.injEq, JsonNumber.integer.injEq]
      by_cases hwide : Int64.minValue.toInt ≤ m ∧ m < UInt64.size
      · rw [if_pos hwide]
        by_cases hrange : least ≤ m ∧ m ≤ greatest
        · simp only [if_pos hrange, Except.ok.injEq]
          constructor
          · rintro rfl
            exact ⟨rfl, hrange⟩
          · exact fun h => h.1
        · simp only [if_neg hrange, reduceCtorEq, false_iff]
          rintro ⟨rfl, h⟩
          exact hrange h
      · rw [if_neg hwide]
        simp only [reduceCtorEq, false_iff]
        rintro ⟨rfl, hlow, hhigh⟩
        exact hwide ⟨Int.le_trans hleast hlow, Int.lt_of_le_of_lt hhigh hgreatest⟩
    | decimal negative mantissa exponent =>
      simp [intIn, Json.integer?, Json.ofInt]
  | _ => simp [intIn, Json.ofInt]

theorem natural_eq_ok_iff {expected : String} {n : Nat} :
    natural expected v = .ok n ↔ v = .ofNat n ∧ n < UInt64.size := by
  have hrange : ∀ m, intIn 0 (UInt64.size - 1) expected v = .ok m ↔
      v = .ofInt m ∧ 0 ≤ m ∧ m ≤ (UInt64.size - 1 : Int) :=
    fun m => intIn_eq_ok_iff (by decide) (by decide)
  unfold natural
  constructor
  · intro h
    cases hdecoded : intIn 0 (UInt64.size - 1) expected v with
    | error fault =>
      rw [hdecoded] at h
      cases h
    | ok m =>
      rw [hdecoded] at h
      obtain rfl : m.toNat = n := Except.ok.inj h
      obtain ⟨rfl, hlow, hhigh⟩ := (hrange m).mp hdecoded
      exact ⟨by rw [Json.ofNat, Int.toNat_of_nonneg hlow]; rfl, by omega⟩
  · rintro ⟨hv, hlt⟩
    rw [(hrange n).mpr ⟨hv, by omega, by omega⟩]
    rfl

theorem boolean_eq_ok_iff {b : Bool} : boolean v = .ok b ↔ v = .bool b := by
  cases v <;> simp [boolean]

theorem text_eq_ok_iff {s : String} : text v = .ok s ↔ v = .string s := by
  cases v <;> simp [text]

theorem mapM_eq_ok_iff {item : Decoder α} {items : List Json} {xs : List α} :
    items.mapM item = .ok xs ↔ List.Forall₂ (fun j x => item j = .ok x) items xs := by
  induction items generalizing xs with
  | nil => cases xs <;> simp [pure, Except.pure]
  | cons j items ih =>
    rw [List.mapM_cons]
    cases hj : item j with
    | error fault => cases xs <;> simp [bind, Except.bind, hj]
    | ok x =>
      cases hitems : items.mapM item with
      | error fault => cases xs <;> simp [bind, Except.bind, hj, ← ih, hitems]
      | ok rest => cases xs <;> simp [bind, Except.bind, pure, Except.pure, hj, ← ih, hitems]

theorem list_eq_ok_iff {item : Decoder α} {xs : List α} : list item v = .ok xs ↔
    ∃ items, v = .array items ∧ List.Forall₂ (fun j x => item j = .ok x) items xs := by
  cases v <;> simp [list, mapM_eq_ok_iff]

theorem optional_eq_ok_iff {value : Decoder α} (hnull : ∀ x, value .null ≠ .ok x) {x : Option α} :
    optional value v = .ok x ↔ v = .null ∧ x = none ∨ ∃ y, x = some y ∧ value v = .ok y := by
  cases v with
  | null => simp [optional, hnull, eq_comm]
  | _ =>
    simp only [optional, reduceCtorEq, false_and, false_or]
    cases value _ <;> simp [Except.map, eq_comm]

theorem lookUp_eq_ok_iff {known : List (String × α)} {name : String} {x : α} :
    lookUp known name = .ok x ↔ known.lookup name = some x := by
  unfold lookUp
  cases known.lookup name <;> simp

theorem lookUpUnit_eq_ok_iff {known : List (String × α)} {name : String} {x : α} :
    lookUpUnit known name v = .ok x ↔ v = .null ∧ known.lookup name = some x := by
  rw [← lookUp_eq_ok_iff]
  unfold lookUpUnit
  cases lookUp known name <;> cases v <;> simp

theorem variant_eq_ok_iff {known : List (String × α)} {x : α} :
    variant known v = .ok x ↔ ∃ name, v.Names name ∧ known.lookup name = some x := by
  cases v with
  | string name => simp [variant, Json.Names, lookUp_eq_ok_iff]
  | object members =>
    simp only [variant, Json.Names, reduceCtorEq, Json.object.injEq, false_or, exists_eq_left']
    split
    · rename_i name value hsorted
      simp [hsorted, lookUpUnit_eq_ok_iff, and_comm]
    · rename_i hsorted
      simp only [reduceCtorEq, false_iff]
      rintro ⟨name, hmembers, -⟩
      exact hsorted name .null hmembers
  | _ => simp [variant, Json.Names]

end Decoder

theorem HaltPolicy.decode_eq_ok_iff {v : Json} {policy : HaltPolicy} :
    HaltPolicy.decode v = .ok policy ↔ v.Names policy.name := by
  have hknown : ∀ name, known.lookup name = some policy ↔ name = policy.name := by
    intro name
    simp only [known, lookup_cons, List.lookup_nil]
    cases policy <;> by_cases h : name = "first-finished" <;> simp [h, HaltPolicy.name]
  simp [HaltPolicy.decode, Decoder.variant_eq_ok_iff, hknown]

theorem BracketStrategy.decode_eq_ok_iff {v : Json} {strategy : BracketStrategy} :
    BracketStrategy.decode v = .ok strategy ↔ v.Names strategy.name := by
  have hknown : ∀ name, known.lookup name = some strategy ↔ name = strategy.name := by
    intro name
    simp only [known, lookup_cons, List.lookup_nil]
    cases strategy <;> by_cases h : name = "scan" <;> simp [h, BracketStrategy.name]
  simp [BracketStrategy.decode, Decoder.variant_eq_ok_iff, hknown]

theorem decodeSize_eq_ok_iff {v : Json} {n : Nat} :
    decodeSize v = .ok n ↔ v = .ofNat n ∧ n < UInt64.size :=
  Decoder.natural_eq_ok_iff

theorem decodeTicks_eq_ok_iff {v : Json} {n : Nat} :
    decodeTicks v = .ok n ↔ v = .ofNat n ∧ n < UInt64.size :=
  Decoder.natural_eq_ok_iff

theorem decodeCell_eq_ok_iff {v : Json} {x : Int} : decodeCell v = .ok x ↔
    v = .ofInt x ∧ Int32.minValue.toInt ≤ x ∧ x ≤ Int32.maxValue.toInt :=
  Decoder.intIn_eq_ok_iff (by decide) (by decide)

theorem decodeCells_eq_ok_iff {v : Json} {cells : List Int} :
    Decoder.list decodeCell v = .ok cells ↔ v = .array (cells.map Json.ofInt) ∧
      ∀ x ∈ cells, Int32.minValue.toInt ≤ x ∧ x ≤ Int32.maxValue.toInt := by
  have hcells : ∀ items, List.Forall₂ (fun item x => decodeCell item = .ok x) items cells ↔
      items = cells.map Json.ofInt ∧
        ∀ x ∈ cells, Int32.minValue.toInt ≤ x ∧ x ≤ Int32.maxValue.toInt := by
    induction cells with
    | nil => simp
    | cons x cells ih =>
      intro items
      cases items with
      | nil => simp
      | cons item items =>
        rw [List.forall₂_cons, ih, decodeCell_eq_ok_iff, List.map_cons, List.cons.injEq,
          List.forall_mem_cons, and_and_and_comm]
  simp [Decoder.list_eq_ok_iff, hcells]

theorem decodeHaltedOn_eq_ok_iff {v : Json} {p : Option Nat} :
    Decoder.optional decodeSize v = .ok p ↔
      v = .null ∧ p = none ∨ ∃ n, p = some n ∧ v = .ofNat n ∧ n < UInt64.size := by
  simp only [← decodeSize_eq_ok_iff]
  exact Decoder.optional_eq_ok_iff fun n hn => by cases hn

/-- What the values of the fields of configurations, summaries and snapshots may be. -/
structure ValidValues : Prop where
  /-- Counts and indices are whole numbers below `2 ^ 64`, written without a sign. -/
  size : ∀ v n, decodeSize v = .ok n ↔ v = .ofNat n ∧ n < UInt64.size
  ticks : ∀ v n, decodeTicks v = .ok n ↔ v = .ofNat n ∧ n < UInt64.size
  /-- The processor on which a run halted is null or an index. -/
  haltedOn : ∀ v p, Decoder.optional decodeSize v = .ok p ↔
    v = .null ∧ p = none ∨ ∃ n, p = some n ∧ v = .ofNat n ∧ n < UInt64.size
  policy : ∀ v policy, HaltPolicy.decode v = .ok policy ↔ v.Names policy.name
  strategy : ∀ v strategy, BracketStrategy.decode v = .ok strategy ↔ v.Names strategy.name
  text : ∀ v s, Decoder.text v = .ok s ↔ v = .string s
  flag : ∀ v b, Decoder.boolean v = .ok b ↔ v = .bool b
  /-- A tape is an array of whole numbers of 32 bits with a sign. -/
  tape : ∀ v cells, Decoder.list decodeCell v = .ok cells ↔
    v = .array (cells.map Json.ofInt) ∧
      ∀ x ∈ cells, Int32.minValue.toInt ≤ x ∧ x ≤ Int32.maxValue.toInt
  /-- Processors are an array of their snapshots. -/
  processors : ∀ v snapshots, Decoder.list ProcessorSnapshot.decode v = .ok snapshots ↔
    ∃ items, v = .array items ∧
      List.Forall₂ (fun item s => ProcessorSnapshot.decode item = .ok s) items snapshots

theorem validValues : ValidValues where
  size _ _ := decodeSize_eq_ok_iff
  ticks _ _ := decodeTicks_eq_ok_iff
  haltedOn _ _ := decodeHaltedOn_eq_ok_iff
  policy _ _ := HaltPolicy.decode_eq_ok_iff
  strategy _ _ := BracketStrategy.decode_eq_ok_iff
  text _ _ := Decoder.text_eq_ok_iff
  flag _ _ := Decoder.boolean_eq_ok_iff
  tape _ _ := decodeCells_eq_ok_iff
  processors _ _ := Decoder.list_eq_ok_iff

end TapeRing

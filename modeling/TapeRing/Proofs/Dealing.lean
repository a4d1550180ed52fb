import Mathlib.Data.List.MinMax
import TapeRing.Proofs.Schedule.Places

/-! # Dealing and gathering

The parts of a program are what its instructions come to when they are dealt out one by one, going
round (`deal_eq_handOut`), and read in rounds the parts are the program again (`gather_parts`). A
program is nothing but the instruction characters of a source text (`toList_text_parse`), so a
source text is dealt in the same way with and without its comments
(`parts_are_dealt_and_gathered`). -/

namespace TapeRing

/-! ## Dealing one by one -/

/-- Deals instructions one by one to `count` hands, going round from the hand `slot` on. -/
def handOut (count : Nat) : (slot : Nat) → (hands : List (List Op)) → List Op → List (List Op)
  | _, hands, [] => hands
  | slot, hands, op :: rest =>
      handOut count ((slot + 1) % count) (hands.modify slot (· ++ [op])) rest

/-- How many instructions go to other hands before the hand `index` is given one. -/
def wait (count slot index : Nat) : Nat :=
  if slot ≤ index then index - slot else index + count - slot

variable {count slot index : Nat}

theorem succ_mod_cases (h : slot < count) :
    slot + 1 < count ∧ (slot + 1) % count = slot + 1 ∨
      slot + 1 = count ∧ (slot + 1) % count = 0 := by
  rcases Nat.lt_or_eq_of_le (Nat.succ_le_of_lt h) with hlt | rfl
  · exact Or.inl ⟨hlt, Nat.mod_eq_of_lt hlt⟩
  · exact Or.inr ⟨rfl, Nat.mod_self _⟩

/-- Once a hand has been given an instruction, all others are given one before it. -/
theorem wait_succ_self (h : slot < count) : wait count ((slot + 1) % count) slot = count - 1 := by
  unfold wait
  rcases succ_mod_cases h with ⟨hlt, heq⟩ | ⟨heq', heq⟩
  · rw [heq]
    split <;> omega
  · rw [heq]
    split <;> omega

theorem wait_of_ne (h : slot < count) (hindex : index < count) (hne : slot ≠ index) :
    wait count slot index = wait count ((slot + 1) % count) index + 1 := by
  unfold wait
  rcases succ_mod_cases h with ⟨hlt, heq⟩ | ⟨heq', heq⟩
  · rw [heq]
    split <;> split <;> omega
  · rw [heq]
    split <;> split <;> omega

@[simp] theorem length_handOut (count : Nat) : ∀ (ops : List Op) (slot : Nat)
    (hands : List (List Op)), (handOut count slot hands ops).length = hands.length := by
  intro ops
  induction ops with
  | nil => intro slot hands; rfl
  | cons op rest ih =>
    intro slot hands
    rw [handOut, ih, List.length_modify]

/-- Each hand takes up every `count`-th instruction from its first one on. -/
theorem getElem?_handOut : ∀ (ops : List Op) (slot : Nat) (hands : List (List Op)), slot < count →
    ∀ index < count, (handOut count slot hands ops)[index]? =
      hands[index]?.map (· ++ everyNth count (wait count slot index) ops) := by
  intro ops
  induction ops with
  | nil =>
    intro slot hands hslot index hindex
    simp [handOut, everyNth]
  | cons op rest ih =>
    intro slot hands hslot index hindex
    have hnext : (slot + 1) % count < count := Nat.mod_lt _ (Nat.zero_lt_of_lt hslot)
    rw [handOut, ih _ _ hnext index hindex, List.getElem?_modify]
    by_cases hturn : slot = index
    · subst hturn
      have hself : wait count slot slot = 0 := by simp [wait]
      rw [hself, everyNth, wait_succ_self hslot]
      cases hands[slot]? <;> simp
    · rw [wait_of_ne hslot hindex hturn, everyNth]
      cases hands[index]? <;> simp [hturn]

namespace Program

theorem deal_eq_handOut (hpos : 0 < count) (program : Program) :
    program.deal count =
      .ok ((handOut count 0 (List.replicate count []) program.ops).map Program.mk) := by
  rw [deal_of_pos hpos]
  apply congrArg Except.ok
  apply List.ext_getElem?
  intro index
  by_cases hindex : index < count
  · rw [getElem?_parts hindex, List.getElem?_map, getElem?_handOut _ _ _ hpos index hindex,
      List.getElem?_replicate, if_pos hindex]
    simp [part, wait]
  · rw [List.getElem?_eq_none (by simpa using hindex),
      List.getElem?_eq_none (by simpa using hindex)]

/-! ## Reading in rounds -/

/-- Reads programs in rounds: the first instruction of each, then the second of each, and so on.
    Programs that have come to their end are passed over. -/
def gather (parts : List Program) : Program :=
  ⟨(List.range ((parts.map length).foldr max 0)).flatMap fun round =>
    parts.filterMap fun part => part.get? round⟩

theorem filterMap_getElem?_range (ops : List Op) (start : Nat) : ∀ count : Nat,
    (List.range count).filterMap (fun index => ops[index + start]?) =
      (ops.drop start).take count := by
  intro count
  induction count with
  | zero => rfl
  | succ count ih =>
    rw [List.range_succ, List.filterMap_append, ih, List.take_add_one, List.getElem?_drop,
      Nat.add_comm start]
    cases h : ops[count + start]? <;> simp [h]

theorem flatMap_take_drop_range (ops : List Op) (count : Nat) : ∀ rounds : Nat,
    (List.range rounds).flatMap (fun round => (ops.drop (round * count)).take count) =
      ops.take (rounds * count) := by
  intro rounds
  induction rounds with
  | zero => simp
  | succ rounds ih =>
    rw [List.range_succ, List.flatMap_append, ih, Nat.succ_mul, List.take_add]
    simp

/-- There are enough rounds to read every instruction. -/
theorem length_le_rounds (hpos : 0 < count) (program : Program) :
    program.length ≤
      (((List.range count).map (program.part count)).map length).foldr max 0 * count := by
  apply Nat.le_of_not_lt
  intro hlt
  have hfirst : program.part count 0 ∈ (List.range count).map (program.part count) :=
    List.mem_map_of_mem (List.mem_range.mpr hpos)
  have hlongest : (program.part count 0).length ≤
      (((List.range count).map (program.part count)).map length).foldr max 0 :=
    List.le_max_of_le' 0 (List.mem_map_of_mem hfirst) (Nat.le_refl _)
  have hmore := (lt_due_iff hpos program.length _).mpr hlt
  rw [← length_part hpos] at hmore
  exact absurd hmore (Nat.not_lt.mpr hlongest)

/-- The parts of a program, read in rounds, are the program. -/
theorem gather_parts (hpos : 0 < count) (program : Program) :
    gather ((List.range count).map (program.part count)) = program := by
  have hround (round : Nat) : ((List.range count).map (program.part count)).filterMap
      (fun part => part.get? round) = (program.ops.drop (round * count)).take count := by
    rw [List.filterMap_map, ← filterMap_getElem?_range]
    apply List.filterMap_congr
    intro index _
    exact get?_part hpos program index round
  rw [gather]
  simp only [hround, flatMap_take_drop_range]
  rw [List.take_of_length_le (length_le_rounds hpos program)]

/-! ## Source texts -/

/-- The characters that stand for instructions. -/
def alphabet : List Char := ['+', '-', '<', '>', '[', ']', '.', ',']

theorem mem_alphabet_iff {c : Char} : c ∈ alphabet ↔ ∃ op, Op.ofChar? c = some op := by
  simp only [Op.ofChar?_eq_some_iff]
  constructor
  · intro h
    simp only [alphabet, List.mem_cons, List.not_mem_nil, or_false] at h
    rcases h with rfl | rfl | rfl | rfl | rfl | rfl | rfl | rfl
    · exact ⟨.increment, rfl⟩
    · exact ⟨.decrement, rfl⟩
    · exact ⟨.left, rfl⟩
    · exact ⟨.right, rfl⟩
    · exact ⟨.loopStart, rfl⟩
    · exact ⟨.loopEnd, rfl⟩
    · exact ⟨.output, rfl⟩
    · exact ⟨.input, rfl⟩
  · rintro ⟨op, rfl⟩
    cases op <;> decide

/-- The instructions of a text, written out, are the text without its comments. -/
theorem map_toChar_filterMap_ofChar? (chars : List Char) :
    (chars.filterMap Op.ofChar?).map Op.toChar = chars.filter (· ∈ alphabet) := by
  induction chars with
  | nil => rfl
  | cons c chars ih =>
    cases hop : Op.ofChar? c with
    | none =>
      have hcomment : c ∉ alphabet := by
        rw [mem_alphabet_iff, hop]
        rintro ⟨op, hop⟩
        cases hop
      rw [List.filterMap_cons_none hop, ih, List.filter_cons_of_neg (by simpa using hcomment)]
    | some op =>
      have hmem : c ∈ alphabet := mem_alphabet_iff.mpr ⟨op, hop⟩
      rw [List.filterMap_cons_some hop, List.map_cons, ih,
        List.filter_cons_of_pos (by simpa using hmem), Op.ofChar?_eq_some_iff.mp hop]

theorem toList_text_parse (source : String) :
    (parse source).text.toList = source.toList.filter (· ∈ alphabet) := by
  rw [text, String.toList_ofList, parse, map_toChar_filterMap_ofChar?]

/-- Texts with the same instruction characters are the same program. -/
theorem parse_eq_of_filter_eq {source source' : String}
    (h : source.toList.filter (· ∈ alphabet) = source'.toList.filter (· ∈ alphabet)) :
    parse source = parse source' := by
  rw [← toList_text_parse, ← toList_text_parse] at h
  rw [← parse_text (parse source), ← parse_text (parse source'), String.toList_inj.mp h]

/-- Let a program be dealt to `count` processors, of which there is at least one.
    - There are as many parts as processors, those that dealing instruction by instruction gives.
      Part `i` has an instruction `k` iff the program has an instruction `k * count + i`, and it is
      that one. So of `l` instructions each part has `l / count`, and the first `l % count` parts
      have one more. Read in rounds the parts are the program.
    - Reading the text of any program gives that program. The text of the program that a source text
      stands for is that of the instruction characters in the source text. Another source text with
      the same instruction characters has the same parts, and every machine that is assembled from
      it is the same.
    - Nothing can be dealt to no processors. -/
theorem parts_are_dealt_and_gathered (source : String) (hpos : 0 < count) :
    (∃ parts, (parse source).deal count = .ok parts ∧ parts.length = count ∧
      parts = (handOut count 0 (List.replicate count []) (parse source).ops).map Program.mk ∧
      (∀ i part, parts[i]? = some part →
        (∀ k, (k < part.length ↔ k * count + i < (parse source).length) ∧
          part.get? k = (parse source).get? (k * count + i)) ∧
        part.length = (parse source).length / count +
          if i < (parse source).length % count then 1 else 0) ∧
      gather parts = parse source) ∧
    (∀ p : Program, parse p.text = p) ∧
    (parse source).text.toList = source.toList.filter (· ∈ alphabet) ∧
    (∀ source' : String,
      source'.toList.filter (· ∈ alphabet) = source.toList.filter (· ∈ alphabet) →
        (parse source').deal count = (parse source).deal count ∧
        ∀ config, Machine.assemble config source' = Machine.assemble config source) ∧
    (parse source).deal 0 = .error .noProcessors ∧
    ∀ config : MachineConfig, config.processors = 0 →
      Machine.assemble config source = .error .noProcessors := by
  refine ⟨⟨_, deal_of_pos hpos _, by simp, ?_, ?_, gather_parts hpos _⟩, parse_text,
    toList_text_parse source, ?_, rfl, fun config hzero => Machine.assemble_of_eq_zero hzero source⟩
  · exact Except.ok.inj ((deal_of_pos hpos _).symm.trans (deal_eq_handOut hpos _))
  · intro i part hpart
    have hindex : i < count := by
      have hlt := (List.getElem?_eq_some_iff.mp hpart).1
      simpa using hlt
    rw [getElem?_parts hindex] at hpart
    obtain rfl := Option.some.inj hpart
    rw [length_part hindex]
    refine ⟨fun k => ⟨lt_due_iff hindex _ k, ?_⟩, due_eq hindex _⟩
    rw [get?_part hpos, Nat.add_comm]
  · intro source' hsame
    have hprogram : parse source' = parse source := parse_eq_of_filter_eq hsame
    refine ⟨by rw [hprogram], fun config => ?_⟩
    rw [Machine.assemble, Machine.assemble, hprogram]

/-- Seven instructions for three processors, with and without comments. -/
theorem parts_are_dealt_and_gathered_on_seven :
    0 < 3 ∧ (parse "+a-<b>[].").text.toList = "+-<>[].".toList ∧
      (∃ parts, (parse "+a-<b>[].").deal 3 = .ok parts ∧ parts.length = 3 ∧
        gather parts = parse "+-<>[].") ∧
      ∀ config, Machine.assemble config "+-<>[]." = Machine.assemble config "+a-<b>[]." := by
  obtain ⟨⟨parts, hdeal, hlength, -, -, hgather⟩, -, htext, hsame, -⟩ :=
    parts_are_dealt_and_gathered "+a-<b>[]." (show 0 < 3 by decide)
  exact ⟨by decide, htext.trans (by decide), ⟨parts, hdeal, hlength, hgather.trans (by decide)⟩,
    (hsame "+-<>[]." (by decide)).2⟩

end Program

end TapeRing

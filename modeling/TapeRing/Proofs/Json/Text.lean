import TapeRing.Json.Printer
import TapeRing.Json.Reader

/-! # Reading back what is written

The text that is written for a value in any layout is read as this value (`parse_textIn`): readers
pass over the blanks that set the items apart. Each writer is undone by its reader in front of any
rest that starts with none of the characters the reader would go on with; for values this is a rest
at which an item can end. -/

namespace TapeRing.Json

/-! ## Where an item ends -/

/-- A character that can follow an item. -/
def Closing (c : Char) : Prop :=
  c = ',' ∨ c = ']' ∨ c = '}'

/-- An item, or a whole text, can end in front of the rest. -/
def Closed (rest : List Char) : Prop :=
  ∀ c ∈ rest.head?, isBlank c = true ∨ Closing c

theorem isBlank_of_isDigit {c : Char} (h : c.isDigit = true) : isBlank c = false := by
  simp only [isBlank, Bool.or_eq_false_iff, decide_eq_false_iff_not]
  refine ⟨⟨⟨?_, ?_⟩, ?_⟩, ?_⟩ <;> rintro rfl <;> cases h

theorem Closed.not_isDigit {rest : List Char} (h : Closed rest) :
    ∀ c ∈ rest.head?, c.isDigit = false := by
  intro c hc
  rcases h c hc with hblank | rfl | rfl | rfl
  · cases hdigit : c.isDigit with
    | false => rfl
    | true => exact absurd hblank (by simp [isBlank_of_isDigit hdigit])
  · rfl
  · rfl
  · rfl

/-- No number goes on with a letter or a point behind an item. -/
theorem Closed.head?_ne {rest : List Char} (h : Closed rest) {c : Char} (hblank : isBlank c = false)
    (hclosing : ¬ Closing c) : rest.head? ≠ some c := by
  intro hc
  rcases h c hc with hblank' | hclosing'
  · rw [hblank] at hblank'
    cases hblank'
  · exact hclosing hclosing'

theorem closed_cons {c : Char} (h : Closing c) (rest : List Char) : Closed (c :: rest) := by
  rintro c' ⟨⟩
  exact Or.inr h

theorem closed_append {blanks rest : List Char} (hblanks : ∀ c ∈ blanks, isBlank c = true)
    (h : Closed rest) : Closed (blanks ++ rest) := by
  cases blanks with
  | nil => exact h
  | cons c blanks =>
    rintro c' ⟨⟩
    exact Or.inl (hblanks c List.mem_cons_self)

/-! ## Numbers -/

theorem readDigits_append {ds rest : List Char} (hne : ds ≠ [])
    (hdigits : ∀ c ∈ ds, c.isDigit = true) (hrest : ∀ c ∈ rest.head?, c.isDigit = false) :
    readDigits (ds ++ rest) = some (ds, rest) := by
  have htake : rest.takeWhile Char.isDigit = [] := by
    cases rest with
    | nil => rfl
    | cons c rest => rw [List.takeWhile_cons_of_neg (by simp [hrest c rfl])]
  have hdrop : rest.dropWhile Char.isDigit = rest := by
    cases rest with
    | nil => rfl
    | cons c rest => rw [List.dropWhile_cons_of_neg (by simp [hrest c rfl])]
  rw [readDigits, List.takeWhile_append_of_pos hdigits, List.dropWhile_append_of_pos hdigits,
    htake, hdrop, List.append_nil]
  split
  · contradiction
  · rfl

/-- The first digit of a number other than zero is not zero. -/
theorem toDigits_ne_zero_cons {n : Nat} (hn : n ≠ 0) (ds : List Char) :
    Nat.toDigits 10 n ≠ '0' :: ds := by
  induction n using Nat.strongRecOn generalizing ds with
  | _ n ih =>
    rcases Nat.lt_or_ge n 10 with hlt | hge
    · rw [Nat.toDigits_of_lt_base hlt]
      intro heq
      have hzero : ∀ m < 10, Nat.digitChar m = '0' → m = 0 := by decide
      exact hn (hzero n hlt (List.cons.inj heq).1)
    · rw [Nat.toDigits_of_base_le (by decide) hge]
      have hhead := ih (n / 10) (by omega) (by omega)
      cases hdigits : Nat.toDigits 10 (n / 10) with
      | nil => exact absurd hdigits Nat.toDigits_ne_nil
      | cons d ds' =>
        rintro ⟨⟩
        exact hhead ds' hdigits

theorem isDigit_of_mem_toDigits {n : Nat} {c : Char} (h : c ∈ Nat.toDigits 10 n) :
    c.isDigit = true :=
  Nat.isDigit_of_mem_toDigits (by decide) (by decide) h

theorem readDigits_toDigits (n : Nat) {rest : List Char}
    (hrest : ∀ c ∈ rest.head?, c.isDigit = false) :
    readDigits (Nat.toDigits 10 n ++ rest) = some (Nat.toDigits 10 n, rest) :=
  readDigits_append Nat.toDigits_ne_nil (fun _ => isDigit_of_mem_toDigits) hrest

theorem readWhole_toDigits (n : Nat) {rest : List Char}
    (hrest : ∀ c ∈ rest.head?, c.isDigit = false) :
    readWhole (Nat.toDigits 10 n ++ rest) = some (Nat.toDigits 10 n, rest) := by
  by_cases hn : n = 0
  · subst hn
    rfl
  · have hdigits := readDigits_toDigits n hrest
    cases hcons : Nat.toDigits 10 n with
    | nil => exact absurd hcons Nat.toDigits_ne_nil
    | cons d ds =>
      have hd : d ≠ '0' := by
        rintro rfl
        exact toDigits_ne_zero_cons hn ds hcons
      rw [hcons] at hdigits
      rw [List.cons_append, readWhole]
      · exact hdigits
      · rintro rest' ⟨⟩
        exact hd rfl

theorem ofDigits_toDigits (n : Nat) : ofDigits (Nat.toDigits 10 n) = n :=
  Nat.ofDigitChars_ten_toDigits

theorem readPower_writeInt (e : Int) {rest : List Char}
    (hrest : ∀ c ∈ rest.head?, c.isDigit = false) :
    readPower (writeInt e rest) = some (e, rest) := by
  cases e with
  | ofNat n =>
    have hdigits := readDigits_toDigits n hrest
    rw [writeInt]
    cases hcons : Nat.toDigits 10 n with
    | nil => exact absurd hcons Nat.toDigits_ne_nil
    | cons d ds =>
      have hd : d.isDigit = true := isDigit_of_mem_toDigits (hcons ▸ List.mem_cons_self)
      rw [hcons] at hdigits
      rw [List.cons_append, readPower]
      · rw [← List.cons_append, hdigits, ← hcons]
        simp only [Option.map_some, ofDigits_toDigits]
        rfl
      · rintro rest' ⟨⟩
        cases hd
      · rintro rest' ⟨⟩
        cases hd
  | negSucc n =>
    rw [writeInt, List.cons_append, readPower, readDigits_toDigits (n + 1) hrest]
    simp only [Option.map_some, ofDigits_toDigits]
    rfl

theorem readExponent_writeInt (e : Int) {rest : List Char}
    (hrest : ∀ c ∈ rest.head?, c.isDigit = false) :
    readExponent ('e' :: writeInt e rest) = some (some e, rest) := by
  rw [readExponent, readPower_writeInt e hrest]
  rfl

theorem readFraction_of_closed {rest : List Char} (h : Closed rest) :
    readFraction rest = some (none, rest) := by
  rw [readFraction]
  rintro rest' rfl
  exact h.head?_ne (c := '.') rfl (by unfold Closing; decide) rfl

theorem readExponent_of_closed {rest : List Char} (h : Closed rest) :
    readExponent rest = some (none, rest) := by
  rw [readExponent]
  · rintro rest' rfl
    exact h.head?_ne (c := 'e') rfl (by unfold Closing; decide) rfl
  · rintro rest' rfl
    exact h.head?_ne (c := 'E') rfl (by unfold Closing; decide) rfl

theorem readUnsigned_whole (negative : Bool) (n : Nat) {rest : List Char} (h : Closed rest) :
    readUnsigned negative (Nat.toDigits 10 n ++ rest) =
      some (assembleNumber negative (Nat.toDigits 10 n) none none, rest) := by
  simp only [readUnsigned, readWhole_toDigits n h.not_isDigit, readFraction_of_closed h,
    readExponent_of_closed h]

theorem readUnsigned_decimal (negative : Bool) (mantissa : Nat) (exponent : Int)
    {rest : List Char} (h : Closed rest) :
    readUnsigned negative (Nat.toDigits 10 mantissa ++ 'e' :: writeInt exponent rest) =
      some (.decimal negative mantissa exponent, rest) := by
  have hwhole : readWhole (Nat.toDigits 10 mantissa ++ 'e' :: writeInt exponent rest) =
      some (Nat.toDigits 10 mantissa, 'e' :: writeInt exponent rest) := by
    apply readWhole_toDigits
    rintro c ⟨⟩
    rfl
  have hfraction : readFraction ('e' :: writeInt exponent rest) =
      some (none, 'e' :: writeInt exponent rest) := rfl
  simp only [readUnsigned, hwhole, hfraction, readExponent_writeInt exponent h.not_isDigit]
  simp [assembleNumber, ofDigits_toDigits]

theorem readNumber_unsigned {d : Char} (hd : d.isDigit = true) (cs : List Char) :
    readNumber (d :: cs) = readUnsigned false (d :: cs) := by
  rw [readNumber]
  rintro rest' ⟨⟩
  cases hd

theorem readNumber_toDigits (n : Nat) (cs : List Char) :
    readNumber (Nat.toDigits 10 n ++ cs) = readUnsigned false (Nat.toDigits 10 n ++ cs) := by
  cases hcons : Nat.toDigits 10 n with
  | nil => exact absurd hcons Nat.toDigits_ne_nil
  | cons d ds =>
    exact readNumber_unsigned (isDigit_of_mem_toDigits (hcons ▸ List.mem_cons_self)) _

theorem readNumber_writeNumber (value : JsonNumber) {rest : List Char} (h : Closed rest) :
    readNumber (writeNumber value rest) = some (value, rest) := by
  cases value with
  | integer value =>
    cases value with
    | ofNat n =>
      rw [writeNumber, writeInt, readNumber_toDigits, readUnsigned_whole false n h]
      simp [assembleNumber, ofDigits_toDigits]
    | negSucc n =>
      rw [writeNumber, writeInt, List.cons_append, readNumber, readUnsigned_whole true _ h]
      simp [assembleNumber, ofDigits_toDigits, Int.negSucc_eq]
  | decimal negative mantissa exponent =>
    cases negative with
    | false =>
      simp only [writeNumber]
      rw [if_neg (by decide), readNumber_toDigits, readUnsigned_decimal false _ _ h]
    | true =>
      simp only [writeNumber]
      rw [if_pos (by decide), readNumber, readUnsigned_decimal true _ _ h]

/-! ## Strings -/

theorem hexValue?_hexDigit : ∀ n < 16, hexValue? (hexDigit n) = some n := by decide

/-- A character that is written as its number is read as this character. -/
theorem readChars_numbered {c : Char} (hc : c.toNat < 32) (cs : List Char) :
    readChars ('\\' :: 'u' :: '0' :: '0' :: hexDigit (c.toNat / 16) ::
        hexDigit (c.toNat % 16) :: cs) =
      (readChars cs).map fun (text, rest) => (c :: text, rest) := by
  have hhex : hexValue4? '0' '0' (hexDigit (c.toNat / 16)) (hexDigit (c.toNat % 16)) =
      some c.toNat := by
    have hzero : hexValue? '0' = some 0 := rfl
    simp only [hexValue4?, hzero, hexValue?_hexDigit (c.toNat / 16) (by omega),
      hexValue?_hexDigit (c.toNat % 16) (by omega)]
    exact congrArg some (by omega)
  have hhigh : isHighHalf c.toNat = false := by simp [isHighHalf]; omega
  have hlow : isLowHalf c.toNat = false := by simp [isLowHalf]; omega
  rw [readChars]
  simp only [hhex, hhigh, hlow, Char.ofNat_toNat]
  rfl

theorem readChars_escaped (c : Char) (cs : List Char) :
    readChars (escaped c ++ cs) = (readChars cs).map fun (text, rest) => (c :: text, rest) := by
  unfold escaped
  -- One case for each character that is written in another way than as itself.
  by_cases hquote : c = '"'
  · subst hquote
    rfl
  by_cases hslash : c = '\\'
  · subst hslash
    rfl
  by_cases hn : c = '\n'
  · subst hn
    rfl
  by_cases hr : c = '\r'
  · subst hr
    rfl
  by_cases ht : c = '\t'
  · subst ht
    rfl
  by_cases hb : c = '\x08'
  · subst hb
    rfl
  by_cases hf : c = '\x0c'
  · subst hf
    rfl
  rw [if_neg hquote, if_neg hslash, if_neg hn, if_neg hr, if_neg ht, if_neg hb, if_neg hf]
  split
  · rename_i hcontrol
    exact readChars_numbered hcontrol cs
  · rename_i hprinted
    rw [List.singleton_append, readChars, if_neg (not_or.mpr ⟨hprinted, hslash⟩)]
    all_goals
      intros
      contradiction

theorem readChars_flatMap_escaped (text rest : List Char) :
    readChars (text.flatMap escaped ++ '"' :: rest) = some (text, rest) := by
  induction text with
  | nil => rfl
  | cons c text ih =>
    rw [List.flatMap_cons, List.append_assoc, readChars_escaped, ih]
    rfl

theorem readString_writeString (text : String) (rest : List Char) :
    readString (writeString text rest) = some (text, rest) := by
  rw [writeString, List.cons_append, readString, readChars_flatMap_escaped]
  simp

/-! ## Values -/

/-- What holds of an array if it holds of its items, and of an object if it holds of the values of
    its members, holds of every value. -/
theorem induction {P : Json → Prop} (null : P .null) (bool : ∀ value, P (.bool value))
    (number : ∀ value, P (.number value)) (string : ∀ value, P (.string value))
    (array : ∀ items, (∀ item ∈ items, P item) → P (.array items))
    (object : ∀ members, (∀ m ∈ members, P m.2) → P (.object members)) : ∀ j, P j
  | .null => null
  | .bool value => bool value
  | .number value => number value
  | .string value => string value
  | .array items => array items fun item _ => induction null bool number string array object item
  | .object members => object members fun m _ =>
      induction null bool number string array object m.2
termination_by j => sizeOf j
decreasing_by
  · rename_i h
    have hlt := List.sizeOf_lt_of_mem h
    simp only [Json.array.sizeOf_spec]
    omega
  · rename_i h
    have hlt := List.sizeOf_lt_of_mem h
    obtain ⟨key, value⟩ := m
    simp only [Prod.mk.sizeOf_spec] at hlt
    simp only [Json.object.sizeOf_spec]
    omega

theorem length_lt_writeInt (value : Int) (rest : List Char) :
    rest.length < (writeInt value rest).length := by
  cases value with
  | ofNat n =>
    have hpos := List.length_pos_iff.mpr (Nat.toDigits_ne_nil (n := n) (b := 10))
    rw [writeInt, List.length_append]
    omega
  | negSucc n =>
    rw [writeInt, List.cons_append, List.length_cons, List.length_append]
    omega

theorem length_writeString (text : String) (rest : List Char) :
    rest.length + 2 ≤ (writeString text rest).length := by
  simp only [writeString, List.cons_append, List.length_cons, List.length_append]
  omega

variable {layout : Layout}

theorem length_lt_writeItems {items : List Json}
    (h : ∀ item ∈ items, ∀ level rest, rest.length < (write layout item level rest).length)
    (level : Nat) (rest : List Char) :
    rest.length < (writeItems layout items level rest).length := by
  induction items with
  | nil =>
    simp only [writeItems, List.length_append, List.length_cons]
    omega
  | cons item items ih =>
    have hitems := ih fun item hitem => h item (List.mem_cons_of_mem _ hitem)
    have hitem := h item List.mem_cons_self (level + 1) (writeItems layout items level rest)
    rw [writeItems, List.length_cons, List.length_append]
    omega

theorem length_lt_writeMembers {members : List (String × Json)}
    (h : ∀ m ∈ members, ∀ level rest, rest.length < (write layout m.2 level rest).length)
    (level : Nat) (rest : List Char) :
    rest.length < (writeMembers layout members level rest).length := by
  induction members with
  | nil =>
    simp only [writeMembers, List.length_append, List.length_cons]
    omega
  | cons m members ih =>
    have hmembers := ih fun m hm => h m (List.mem_cons_of_mem _ hm)
    have hvalue := h m List.mem_cons_self (level + 1) (writeMembers layout members level rest)
    rw [writeMembers, writeString]
    simp only [List.length_cons, List.length_append]
    omega

/-- Every value has a text. -/
theorem length_lt_write (layout : Layout) (j : Json) :
    ∀ level rest, rest.length < (write layout j level rest).length := by
  induction j using Json.induction with
  | null =>
    intro level rest
    simp only [write, List.length_cons]
    omega
  | bool value =>
    intro level rest
    cases value <;> simp only [write, List.length_cons] <;> omega
  | number value =>
    intro level rest
    cases value with
    | integer value => exact length_lt_writeInt value rest
    | decimal negative mantissa exponent =>
      have hexponent := length_lt_writeInt exponent rest
      cases negative <;> simp [write, writeNumber] <;> omega
  | string value =>
    intro level rest
    have hstring := length_writeString value rest
    rw [write]
    omega
  | array items h =>
    intro level rest
    cases items with
    | nil =>
      simp only [write, List.length_cons]
      omega
    | cons item items =>
      have hitems := length_lt_writeItems (fun item hitem => h item (List.mem_cons_of_mem _ hitem))
        level rest
      have hitem := h item List.mem_cons_self (level + 1) (writeItems layout items level rest)
      rw [write, List.length_cons, List.length_append]
      omega
  | object members h =>
    intro level rest
    cases members with
    | nil =>
      simp only [write, List.length_cons]
      omega
    | cons m members =>
      have hmembers := length_lt_writeMembers (fun m hm => h m (List.mem_cons_of_mem _ hm))
        level rest
      have hvalue := h m List.mem_cons_self (level + 1) (writeMembers layout members level rest)
      rw [write, writeString]
      simp only [List.length_cons, List.length_append]
      omega

/-! ### Blanks -/

section Blanks

theorem skipBlanks_cons {c : Char} (h : isBlank c = false) (cs : List Char) :
    skipBlanks (c :: cs) = c :: cs :=
  List.dropWhile_cons_of_neg (by simp [h])

variable {blanks : List Char} (h : ∀ c ∈ blanks, isBlank c = true)
include h

theorem skipBlanks_append (cs : List Char) : skipBlanks (blanks ++ cs) = skipBlanks cs :=
  List.dropWhile_append_of_pos h

/-- Up to a character that is not a blank. -/
theorem skipBlanks_append_cons {c : Char} (hc : isBlank c = false) (cs : List Char) :
    skipBlanks (blanks ++ c :: cs) = c :: cs := by
  rw [skipBlanks_append h, skipBlanks_cons hc]

theorem readValue_append (fuel : Nat) (cs : List Char) :
    readValue fuel (blanks ++ cs) = readValue fuel cs := by
  cases fuel with
  | zero => rfl
  | succ fuel => rw [readValue, readValue, skipBlanks_append h]

theorem readItems_append (fuel : Nat) (cs : List Char) :
    readItems fuel (blanks ++ cs) = readItems fuel cs := by
  cases fuel with
  | zero => rfl
  | succ fuel => rw [readItems, readItems, readValue_append h]

theorem readMembers_append (fuel : Nat) (cs : List Char) :
    readMembers fuel (blanks ++ cs) = readMembers fuel cs := by
  cases fuel with
  | zero => rfl
  | succ fuel => rw [readMembers, readMembers, skipBlanks_append h]

end Blanks

/-- The text of a number starts with a digit or a sign. -/
theorem writeNumber_head (value : JsonNumber) (rest : List Char) :
    ∃ c cs, writeNumber value rest = c :: cs ∧ (c.isDigit = true ∨ c = '-') := by
  have hdigits : ∀ (n : Nat) (tail : List Char),
      ∃ c cs, Nat.toDigits 10 n ++ tail = c :: cs ∧ (c.isDigit = true ∨ c = '-') := by
    intro n tail
    cases hcons : Nat.toDigits 10 n with
    | nil => exact absurd hcons Nat.toDigits_ne_nil
    | cons d ds =>
      exact ⟨d, ds ++ tail, rfl, .inl (isDigit_of_mem_toDigits (hcons ▸ List.mem_cons_self))⟩
  cases value with
  | integer value =>
    cases value with
    | ofNat n => exact hdigits n rest
    | negSucc n => exact ⟨'-', _, rfl, .inr rfl⟩
  | decimal negative mantissa exponent =>
    cases negative with
    | false => exact hdigits mantissa _
    | true => exact ⟨'-', _, rfl, .inr rfl⟩

/-- No text starts with a blank or with the end of an array. -/
theorem write_head (j : Json) (level : Nat) (rest : List Char) :
    ∃ c cs, write layout j level rest = c :: cs ∧ isBlank c = false ∧ c ≠ ']' := by
  cases j with
  | null => exact ⟨'n', _, rfl, rfl, by decide⟩
  | bool value =>
    cases value with
    | true => exact ⟨'t', _, rfl, rfl, by decide⟩
    | false => exact ⟨'f', _, rfl, rfl, by decide⟩
  | number value =>
    obtain ⟨c, cs, hcons, hc⟩ := writeNumber_head value rest
    refine ⟨c, cs, hcons, ?_⟩
    rcases hc with hdigit | rfl
    · refine ⟨isBlank_of_isDigit hdigit, ?_⟩
      rintro rfl
      cases hdigit
    · decide
  | string value => exact ⟨'"', _, rfl, rfl, by decide⟩
  | array items => cases items <;> exact ⟨'[', _, rfl, rfl, by decide⟩
  | object members => cases members <;> exact ⟨'{', _, rfl, rfl, by decide⟩

/-! ### Items and members -/

/-- With fuel for its characters the text of a value is read as this value. -/
def ReadsBack (layout : Layout) (j : Json) : Prop :=
  ∀ level fuel rest, Closed rest → (write layout j level rest).length ≤ fuel + 1 + rest.length →
    readValue (fuel + 1) (write layout j level rest) = some (j, rest)

section Readers

variable {level fuel : Nat} {rest : List Char}

/-- The array ends after an item. -/
theorem readItems_last {item : Json} (hitem : ReadsBack layout item) {blanks : List Char}
    (hblanks : ∀ c ∈ blanks, isBlank c = true)
    (hfuel : (write layout item level (blanks ++ ']' :: rest)).length ≤
      fuel + 1 + (blanks ++ ']' :: rest).length) :
    readItems (fuel + 2) (write layout item level (blanks ++ ']' :: rest)) =
      some ([item], rest) := by
  have hclosed : Closed (blanks ++ ']' :: rest) :=
    closed_append hblanks (closed_cons (.inr (.inl rfl)) rest)
  rw [readItems, hitem level fuel _ hclosed hfuel]
  simp only [skipBlanks_append_cons hblanks (c := ']') rfl]

/-- The array goes on after an item. -/
theorem readItems_next {item : Json} (hitem : ReadsBack layout item) {text : List Char}
    (hfuel : (write layout item level (',' :: text)).length ≤ fuel + 1 + (',' :: text).length)
    {items : List Json} (hread : readItems (fuel + 1) text = some (items, rest)) :
    readItems (fuel + 2) (write layout item level (',' :: text)) =
      some (item :: items, rest) := by
  rw [readItems, hitem level fuel _ (closed_cons (.inl rfl) text) hfuel]
  simp only [skipBlanks_cons (c := ',') rfl, hread, Option.map_some]

theorem readItems_write (level : Nat) {items : List Json} : ∀ {item : Json}, ReadsBack layout item →
    (∀ item ∈ items, ReadsBack layout item) → ∀ fuel rest,
      (write layout item (level + 1) (writeItems layout items level rest)).length ≤
          fuel + rest.length →
        readItems fuel (write layout item (level + 1) (writeItems layout items level rest)) =
          some (item :: items, rest) := by
  induction items with
  | nil =>
    intro item hitem _ fuel rest hfuel
    have hlt := length_lt_write layout item (level + 1) (writeItems layout [] level rest)
    rw [writeItems] at hfuel hlt ⊢
    simp only [List.length_append, List.length_cons] at hlt
    obtain ⟨fuel, rfl⟩ : ∃ more, fuel = more + 2 := ⟨fuel - 2, by omega⟩
    refine readItems_last hitem (layout.isBlank_line level) ?_
    simp only [List.length_append, List.length_cons]
    omega
  | cons next items ih =>
    intro item hitem hitems fuel rest hfuel
    obtain ⟨hnext, hitems⟩ := List.forall_mem_cons.mp hitems
    -- An item has a character at least, which pays for the fuel that reading it takes.
    have hlt := length_lt_write layout item (level + 1) (writeItems layout (next :: items) level rest)
    have hnextLt := length_lt_write layout next (level + 1) (writeItems layout items level rest)
    have hitemsLt : rest.length < (writeItems layout items level rest).length :=
      length_lt_writeItems (fun item _ => length_lt_write layout item) level rest
    rw [writeItems] at hfuel hlt ⊢
    simp only [List.length_append, List.length_cons] at hlt
    obtain ⟨fuel, rfl⟩ : ∃ more, fuel = more + 2 := ⟨fuel - 2, by omega⟩
    refine readItems_next hitem ?_ ?_
    · simp only [List.length_append, List.length_cons]
      omega
    · rw [readItems_append (layout.isBlank_line (level + 1))]
      exact ih hnext hitems (fuel + 1) rest (by omega)

theorem skipBlanks_writeString (text : String) (rest : List Char) :
    skipBlanks (writeString text rest) = writeString text rest := rfl

theorem skipBlanks_colon (rest : List Char) : skipBlanks (':' :: rest) = ':' :: rest := rfl

/-- The object ends after a member. -/
theorem readMembers_last (key : String) {value : Json} (hvalue : ReadsBack layout value)
    {gap blanks : List Char} (hgap : ∀ c ∈ gap, isBlank c = true)
    (hblanks : ∀ c ∈ blanks, isBlank c = true)
    (hfuel : (write layout value level (blanks ++ '}' :: rest)).length ≤
      fuel + 1 + (blanks ++ '}' :: rest).length) :
    readMembers (fuel + 2)
        (writeString key (':' :: (gap ++ write layout value level (blanks ++ '}' :: rest)))) =
      some ([(key, value)], rest) := by
  have hclosed : Closed (blanks ++ '}' :: rest) :=
    closed_append hblanks (closed_cons (.inr (.inr rfl)) rest)
  have hread := hvalue level fuel _ hclosed hfuel
  rw [readMembers, skipBlanks_writeString, readString_writeString]
  simp only [skipBlanks_colon, readValue_append hgap, hread,
    skipBlanks_append_cons hblanks (c := '}') rfl]

/-- The object goes on after a member. -/
theorem readMembers_next (key : String) {value : Json} (hvalue : ReadsBack layout value)
    {gap text : List Char} (hgap : ∀ c ∈ gap, isBlank c = true)
    (hfuel : (write layout value level (',' :: text)).length ≤ fuel + 1 + (',' :: text).length)
    {members : List (String × Json)} (hread : readMembers (fuel + 1) text = some (members, rest)) :
    readMembers (fuel + 2)
        (writeString key (':' :: (gap ++ write layout value level (',' :: text)))) =
      some ((key, value) :: members, rest) := by
  have hmember := hvalue level fuel _ (closed_cons (.inl rfl) text) hfuel
  rw [readMembers, skipBlanks_writeString, readString_writeString]
  simp only [skipBlanks_colon, readValue_append hgap, hmember, skipBlanks_cons (c := ',') rfl,
    hread, Option.map_some]

theorem readMembers_write (level : Nat) {members : List (String × Json)} :
    ∀ (key : String) {value : Json}, ReadsBack layout value →
      (∀ m ∈ members, ReadsBack layout m.2) → ∀ fuel rest,
        (writeString key (':' :: (layout.gap ++
            write layout value (level + 1) (writeMembers layout members level rest)))).length ≤
              fuel + rest.length →
          readMembers fuel (writeString key (':' :: (layout.gap ++
              write layout value (level + 1) (writeMembers layout members level rest)))) =
            some ((key, value) :: members, rest) := by
  induction members with
  | nil =>
    intro key value hvalue _ fuel rest hfuel
    have hkey := length_writeString key (':' :: (layout.gap ++
      write layout value (level + 1) (writeMembers layout [] level rest)))
    have hlt := length_lt_write layout value (level + 1) (writeMembers layout [] level rest)
    rw [writeMembers] at hfuel hkey hlt ⊢
    simp only [List.length_append, List.length_cons] at hkey hlt
    obtain ⟨fuel, rfl⟩ : ∃ more, fuel = more + 2 := ⟨fuel - 2, by omega⟩
    refine readMembers_last key hvalue layout.isBlank_gap (layout.isBlank_line level) ?_
    simp only [List.length_append, List.length_cons]
    omega
  | cons m members ih =>
    intro key value hvalue hmembers fuel rest hfuel
    obtain ⟨nextKey, next⟩ := m
    obtain ⟨(hnext : ReadsBack layout next), hmembers⟩ := List.forall_mem_cons.mp hmembers
    have hkey := length_writeString key (':' :: (layout.gap ++
      write layout value (level + 1) (writeMembers layout ((nextKey, next) :: members) level rest)))
    have hlt := length_lt_write layout value (level + 1)
      (writeMembers layout ((nextKey, next) :: members) level rest)
    have hnextKey := length_writeString nextKey (':' :: (layout.gap ++
      write layout next (level + 1) (writeMembers layout members level rest)))
    have hnextLt := length_lt_write layout next (level + 1) (writeMembers layout members level rest)
    have hmembersLt : rest.length < (writeMembers layout members level rest).length :=
      length_lt_writeMembers (fun m _ => length_lt_write layout m.2) level rest
    rw [writeMembers] at hfuel hkey hlt ⊢
    simp only [List.length_append, List.length_cons] at hkey hlt hnextKey
    obtain ⟨fuel, rfl⟩ : ∃ more, fuel = more + 2 := ⟨fuel - 2, by omega⟩
    refine readMembers_next key hvalue layout.isBlank_gap ?_ ?_
    · simp only [List.length_append, List.length_cons]
      omega
    · rw [readMembers_append (layout.isBlank_line (level + 1))]
      exact ih nextKey hnext hmembers (fuel + 1) rest (by omega)

end Readers

/-! ### Whole texts -/

/-- A text that starts with a digit or a sign is read as a number. -/
theorem readValue_number {c : Char} (hc : c.isDigit = true ∨ c = '-') (fuel : Nat)
    (cs : List Char) : readValue (fuel + 1) (c :: cs) =
      (readNumber (c :: cs)).map fun (n, rest) => (.number n, rest) := by
  have hskip : skipBlanks (c :: cs) = c :: cs := by
    apply skipBlanks_cons
    rcases hc with hdigit | rfl
    · exact isBlank_of_isDigit hdigit
    · rfl
  rw [readValue, hskip]
  rcases hc with hdigit | rfl
  · split <;> first | rfl | (rename_i heq; cases heq; cases hdigit)
  · rfl

theorem readsBack (layout : Layout) (j : Json) : ReadsBack layout j := by
  induction j using Json.induction with
  | null => exact fun level fuel rest _ _ => rfl
  | bool value => cases value <;> exact fun level fuel rest _ _ => rfl
  | number value =>
    intro level fuel rest hrest _
    obtain ⟨c, cs, hcons, hc⟩ := writeNumber_head value rest
    rw [write, hcons, readValue_number hc, ← hcons, readNumber_writeNumber value hrest]
    rfl
  | string value =>
    intro level fuel rest _ _
    rw [write, readValue, skipBlanks_writeString, writeString, List.cons_append]
    simp only [readChars_flatMap_escaped, Option.map_some, String.ofList_toList]
  | array items h =>
    intro level fuel rest _ hfuel
    cases items with
    | nil => rfl
    | cons item items =>
      obtain ⟨hitem, hitems⟩ := List.forall_mem_cons.mp h
      rw [write, List.length_cons, List.length_append] at hfuel
      have hread := readItems_write level hitem hitems fuel rest (by omega)
      obtain ⟨c, cs, hcons, hblank, hend⟩ :=
        write_head item (level + 1) (writeItems layout items level rest)
      rw [hcons] at hread
      rw [write, hcons, readValue, skipBlanks_cons (c := '[') rfl]
      simp only [skipBlanks_append_cons (layout.isBlank_line (level + 1)) hblank]
      split
      · rename_i heq
        exact absurd (List.cons.inj heq).1 hend
      · rw [hread]
        rfl
  | object members h =>
    intro level fuel rest _ hfuel
    cases members with
    | nil => rfl
    | cons m members =>
      obtain ⟨hvalue, hmembers⟩ := List.forall_mem_cons.mp h
      rw [write, List.length_cons, List.length_append] at hfuel
      have hread := readMembers_write level m.1 hvalue hmembers fuel rest (by omega)
      rw [write, readValue, skipBlanks_cons (c := '{') rfl]
      simp only [skipBlanks_append (layout.isBlank_line (level + 1)), skipBlanks_writeString]
      exact congrArg (Option.map _) hread

/-- The text of a value in a layout is read as this value. -/
theorem parse_textIn (layout : Layout) (j : Json) : parse (j.textIn layout) = some j := by
  have hread := readsBack layout j 0 (write layout j 0 []).length []
    (by rintro c ⟨⟩) (by simp)
  rw [parse, textIn, String.toList_ofList, String.length_ofList, hread]
  rfl

/-- Each item is on a line of its own, and what has no items is on one line. -/
example : (object [("a", array [null, bool true]), ("b", object [])]).pretty =
    "\x7b\n  \"a\": [\n    null,\n    true\n  ],\n  \"b\": \x7b\x7d\n\x7d" := by
  rfl

end TapeRing.Json

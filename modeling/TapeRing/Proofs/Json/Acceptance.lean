import TapeRing.Proofs.Json.Shape

/-! # What a decoder accepts

`Verdict` says what becomes of values by the names of fields: the data that have them, the fault of
the bad value with the least key, or the first missing field in the order of declaration. A lawful
shape gives this verdict on every object (`Lawful.verdict_iff`), and verdicts depend on nothing but
what the declared values are decoded to. `Decoder.Follows` gathers what comes of it. -/

namespace TapeRing

/-- What becomes of values that are given for the names of fields. -/
inductive Verdict {α : Type} (table : List (Declaration α)) (given : Given) :
    Except DecodeFault α → Prop
  | taken {data : α} : (∀ t ∈ table, t.Reads given data) → Verdict table given (.ok data)
  | bad {t : Declaration α} {fault : DecodeFault} : t ∈ table →
      t.outcome? given = some (.error fault) →
      (∀ t' ∈ table, t'.name < t.name → ∀ fault', t'.outcome? given ≠ some (.error fault')) →
      Verdict table given (.error fault)
  | missing {t : Declaration α} :
      (∀ t' ∈ table, ∀ fault, t'.outcome? given ≠ some (.error fault)) →
      t.FirstMissing table given → Verdict table given (.error (.missingField t.name))

variable {σ α : Type} {shape : Shape σ α} {table : List (Declaration α)} {draft : Given → σ}
  {given given' : Given}

theorem Verdict.congr (h : ∀ t ∈ table, t.outcome? given = t.outcome? given')
    {result : Except DecodeFault α} (hverdict : Verdict table given result) :
    Verdict table given' result := by
  cases hverdict with
  | taken hreads =>
    apply Verdict.taken
    intro t ht
    rw [Declaration.Reads, ← h t ht]
    exact hreads t ht
  | @bad t fault ht hbad hleast =>
    apply Verdict.bad ht
    · rw [← h t ht]
      exact hbad
    · intro t' ht' hlt
      rw [← h t' ht']
      exact hleast t' ht' hlt
  | @missing t hgood hfirst =>
    apply Verdict.missing
    · intro t' ht'
      rw [← h t' ht']
      exact hgood t' ht'
    · obtain ⟨before, after, htable, hnone, hbefore⟩ := hfirst
      refine ⟨before, after, htable, ?_, ?_⟩
      · rw [← h t (by simp [htable])]
        exact hnone
      · intro t' ht'
        rw [← h t' (by simp [htable, ht'])]
        exact hbefore t' ht'

namespace Declaration

variable {t : Declaration α}

theorem outcome?_of_given {value : Json} (h : given t.name = some value) :
    t.outcome? given = some (t.decoder value) := by
  rw [outcome?, value?, h, Option.some_or, Option.map_some]

theorem outcome?_of_absent {value : Json} (h : given t.name = none)
    (hifAbsent : t.ifAbsent = some value) : t.outcome? given = some (t.decoder value) := by
  rw [outcome?, value?, h, Option.none_or, hifAbsent, Option.map_some]

theorem outcome?_eq_none_iff :
    t.outcome? given = none ↔ given t.name = none ∧ t.ifAbsent = none := by
  rw [outcome?, Option.map_eq_none_iff, value?, Option.or_eq_none_iff]

theorem FirstMissing.mem (h : t.FirstMissing table given) : t ∈ table := by
  obtain ⟨before, after, rfl, -⟩ := h
  simp

theorem FirstMissing.outcome?_eq (h : t.FirstMissing table given) : t.outcome? given = none := by
  obtain ⟨_, _, -, hnone, -⟩ := h
  exact hnone

theorem firstMissing_iff_find? : t.FirstMissing table given ↔
    table.find? (fun t => (t.outcome? given).isNone) = some t := by
  rw [List.find?_eq_some_iff_append, FirstMissing]
  constructor
  · rintro ⟨before, after, htable, hnone, hbefore⟩
    refine ⟨Option.isNone_iff_eq_none.mpr hnone, before, after, htable, ?_⟩
    simpa [Option.isSome_iff_ne_none] using hbefore
  · rintro ⟨hnone, before, after, htable, hbefore⟩
    refine ⟨before, after, htable, Option.isNone_iff_eq_none.mp hnone, ?_⟩
    simpa [Option.isSome_iff_ne_none] using hbefore

theorem FirstMissing.unique {t' : Declaration α} (h : t.FirstMissing table given)
    (h' : t'.FirstMissing table given) : t = t' := by
  rw [firstMissing_iff_find?] at h h'
  exact Option.some.inj (h.symm.trans h')

end Declaration

namespace Shape.Lawful

variable (h : shape.Lawful table draft)
include h

/-- What is left out is never bad. -/
theorem outcome?_eq_error_iff {t : Declaration α} (ht : t ∈ table) {fault : DecodeFault} :
    t.outcome? given = some (.error fault) ↔
      ∃ value, given t.name = some value ∧ t.decoder value = .error fault := by
  cases hgiven : given t.name with
  | some value => simp [Declaration.outcome?_of_given hgiven]
  | none =>
    simp only [reduceCtorEq, false_and, exists_false, iff_false]
    cases hifAbsent : t.ifAbsent with
    | none => simp [Declaration.outcome?_eq_none_iff.mpr ⟨hgiven, hifAbsent⟩]
    | some value =>
      obtain ⟨b, hb⟩ := h.accepts_ifAbsent t ht value hifAbsent
      simp [Declaration.outcome?_of_absent hgiven hifAbsent, hb]

theorem accepted_iff :
    Accepted table given ↔ ∀ t ∈ table, ∀ fault, t.outcome? given ≠ some (.error fault) := by
  constructor
  · intro hgood t ht fault hbad
    obtain ⟨value, hvalue, hfault⟩ := (h.outcome?_eq_error_iff ht).mp hbad
    obtain ⟨b, hb⟩ := hgood t ht value hvalue
    cases hfault.symm.trans hb
  · intro hgood t ht value hvalue
    cases hdecoded : t.decoder value with
    | ok b => exact ⟨b, hdecoded⟩
    | error fault =>
      exact absurd ((h.outcome?_eq_error_iff ht).mpr ⟨value, hvalue, hdecoded⟩) (hgood t ht fault)

/-- Without a bad value the first missing field is reported, or there are data. -/
theorem verdict_of_accepted (hgood : Accepted table given) :
    Verdict table given (shape.finish (draft given)) := by
  rcases h.finish_cases given hgood with ⟨t, hfirst, hfinish⟩ | ⟨data, hfinish, hreads⟩
  · rw [hfinish]
    exact .missing ((h.accepted_iff).mp hgood) hfirst
  · rw [hfinish]
    exact .taken hreads

theorem exists_verdict (given : Given) : ∃ result, Verdict table given result := by
  by_cases hgood : Accepted table given
  · exact ⟨_, h.verdict_of_accepted hgood⟩
  · obtain ⟨t, ht, value, fault, hvalue, hfault, hleast⟩ := exists_least_refused hgood
    refine ⟨_, .bad ht ((h.outcome?_eq_error_iff ht).mpr ⟨value, hvalue, hfault⟩) ?_⟩
    intro t' ht' hlt fault' hbad
    obtain ⟨value', hvalue', hfault'⟩ := (h.outcome?_eq_error_iff ht').mp hbad
    obtain ⟨b, hb⟩ := hleast t' ht' hlt value' hvalue'
    cases hfault'.symm.trans hb

theorem decode_of_verdict {members : List (String × Json)} {result : Except DecodeFault α}
    (hverdict : Verdict table (givenBy members) result) :
    shape.decode (.object members) = result := by
  cases hverdict with
  | @taken data hreads =>
    have hgood : Accepted table (givenBy members) := by
      rw [h.accepted_iff]
      intro t ht fault hbad
      cases hbad.symm.trans (hreads t ht)
    rw [h.decode_of_accepted hgood]
    rcases h.finish_cases _ hgood with ⟨t, hfirst, -⟩ | ⟨data', hfinish, hreads'⟩
    · cases hfirst.outcome?_eq.symm.trans (hreads t hfirst.mem)
    · have hdata : data' = data := by
        apply h.ext
        intro t ht
        exact Except.ok.inj (Option.some.inj ((hreads' t ht).symm.trans (hreads t ht)))
      rw [hfinish, hdata]
  | @bad t fault ht hbad hleast =>
    obtain ⟨value, hvalue, hfault⟩ := (h.outcome?_eq_error_iff ht).mp hbad
    apply h.decode_of_refused ht hvalue hfault
    intro t' ht' hlt value' hvalue'
    cases hdecoded : t'.decoder value' with
    | ok b => exact ⟨b, hdecoded⟩
    | error fault' =>
      exact absurd ((h.outcome?_eq_error_iff ht').mpr ⟨value', hvalue', hdecoded⟩)
        (hleast t' ht' hlt fault')
  | @missing t hnever hfirst =>
    have hgood := (h.accepted_iff).mpr hnever
    rw [h.decode_of_accepted hgood]
    rcases h.finish_cases _ hgood with ⟨t', hfirst', hfinish⟩ | ⟨data, -, hreads⟩
    · rw [hfinish, hfirst'.unique hfirst]
    · cases hfirst.outcome?_eq.symm.trans (hreads t hfirst.mem)

/-- An object gets the verdict on its values, and no other result. -/
theorem verdict_iff {members : List (String × Json)} {result : Except DecodeFault α} :
    Verdict table (givenBy members) result ↔ shape.decode (.object members) = result := by
  constructor
  · exact h.decode_of_verdict
  · rintro rfl
    obtain ⟨result, hverdict⟩ := h.exists_verdict (givenBy members)
    rwa [h.decode_of_verdict hverdict]

/-- Objects whose declared values are decoded alike are decoded alike, faults included. -/
theorem decode_congr {members members' : List (String × Json)}
    (halike : ∀ t ∈ table, t.outcome? (givenBy members) = t.outcome? (givenBy members')) :
    shape.decode (.object members) = shape.decode (.object members') :=
  ((h.verdict_iff).mp (((h.verdict_iff).mpr rfl).congr halike)).symm

theorem ok_iff {members : List (String × Json)} :
    (∃ data, shape.decode (.object members) = .ok data) ↔
      Accepted table (givenBy members) ∧
        ∀ t ∈ table, t.ifAbsent = none → givenBy members t.name ≠ none := by
  constructor
  · rintro ⟨data, hdata⟩
    obtain ⟨hreads⟩ := (h.verdict_iff).mpr hdata
    constructor
    · rw [h.accepted_iff]
      intro t ht fault hbad
      cases hbad.symm.trans (hreads t ht)
    · intro t ht hifAbsent hnone
      cases (Declaration.outcome?_eq_none_iff.mpr ⟨hnone, hifAbsent⟩).symm.trans (hreads t ht)
  · rintro ⟨hgood, hpresent⟩
    rw [h.decode_of_accepted hgood]
    rcases h.finish_cases _ hgood with ⟨t, hfirst, -⟩ | ⟨data, hfinish, -⟩
    · obtain ⟨hgiven, hifAbsent⟩ := Declaration.outcome?_eq_none_iff.mp hfirst.outcome?_eq
      exact absurd hgiven (hpresent t hfirst.mem hifAbsent)
    · exact ⟨data, hfinish⟩

/-! ## Arrays -/

omit h in
theorem nodup_keys_zip (hnodup : (table.map Declaration.name).Nodup) (items : List Json) :
    (((table.map Declaration.name).zip items).map Prod.fst).Nodup := by
  rw [List.zip_eq_zip_take_min, List.map_fst_zip (by simp)]
  exact hnodup.sublist (List.take_sublist _ _)

theorem givenBy_zip_eq_some_iff {items : List Json} {t : Declaration α} (ht : t ∈ table)
    {value : Json} :
    givenBy ((table.map Declaration.name).zip items) t.name = some value ↔
      (t, value) ∈ table.zip items := by
  rw [givenBy_of_nodup (nodup_keys_zip h.nodup items), List.zip_map_left]
  constructor
  · intro hlookup
    obtain ⟨⟨t', value'⟩, hmem, heq⟩ := List.mem_map.mp (mem_of_lookup_eq_some hlookup)
    obtain ⟨hname, rfl⟩ := Prod.mk.inj heq
    rwa [← List.inj_on_of_nodup_map h.nodup (List.of_mem_zip hmem).1 ht hname]
  · intro hmem
    have hkeys := nodup_keys_zip h.nodup items
    rw [List.zip_map_left] at hkeys
    exact lookup_eq_some_of_mem hkeys (List.mem_map_of_mem hmem)

/-- An array without bad items, where nothing else is missing than what may be left out at the end,
    is decoded like the object with its items as members. -/
theorem decode_array {items : List Json} (hlength : items.length ≤ table.length)
    (hgood : ∀ p ∈ table.zip items, p.1.Accepts p.2)
    (hend : ∀ t ∈ table.drop items.length, t.mayEnd = true) :
    shape.decode (.array items) =
      shape.decode (.object ((table.map Declaration.name).zip items)) := by
  have haccepted : Accepted table (givenBy ((table.map Declaration.name).zip items)) := by
    intro t ht value hvalue
    exact hgood (t, value) ((h.givenBy_zip_eq_some_iff ht).mp hvalue)
  rw [h.decode_of_accepted haccepted, decode, ← h.blank_eq,
    fillItems_of_accepted items.length h.fields 0 items _ hlength hgood hend, give_none]

omit h in
theorem mem_zip_or_mem_drop (items : List Json) {t : Declaration α} (ht : t ∈ table) :
    (∃ value, (t, value) ∈ table.zip items) ∨ t ∈ table.drop items.length := by
  obtain ⟨index, hindex, rfl⟩ := List.getElem_of_mem ht
  rcases Nat.lt_or_ge index items.length with hlt | hge
  · left
    refine ⟨items[index], List.mem_iff_getElem.mpr ⟨index, ?_, List.getElem_zip⟩⟩
    rw [List.length_zip]
    omega
  · right
    rw [List.mem_drop_iff_getElem]
    exact ⟨index - items.length, by omega, by simp [Nat.add_sub_cancel' hge]⟩

theorem array_ok_iff {items : List Json} :
    (∃ data, shape.decode (.array items) = .ok data) ↔
      items.length ≤ table.length ∧ (∀ p ∈ table.zip items, p.1.Accepts p.2) ∧
        ∀ t ∈ table.drop items.length, t.mayEnd = true := by
  constructor
  · rintro ⟨data, hdata⟩
    rw [decode, ← h.blank_eq] at hdata
    split at hdata
    · rename_i filled hfilled
      exact accepted_of_fillItems items.length h.fields hfilled
    · cases hdata
  · rintro ⟨hlength, hgood, hend⟩
    rw [h.decode_array hlength hgood hend, h.ok_iff]
    constructor
    · intro t ht value hvalue
      exact hgood (t, value) ((h.givenBy_zip_eq_some_iff ht).mp hvalue)
    · intro t ht hifAbsent
      rcases mem_zip_or_mem_drop items ht with ⟨value, hmem⟩ | hdrop
      · rw [(h.givenBy_zip_eq_some_iff ht).mpr hmem]
        exact Option.some_ne_none value
      · exact absurd hifAbsent (h.ifAbsent_of_mayEnd t ht (hend t hdrop))

theorem exists_value_of_object {members : List (String × Json)} {data : α}
    (hdata : shape.decode (.object members) = .ok data) :
    ∀ t ∈ table, ∃ value, t.decoder value = .ok (t.get data) := by
  intro t ht
  obtain ⟨hreads⟩ := (h.verdict_iff).mpr hdata
  obtain ⟨value, -, hvalue⟩ := Option.map_eq_some_iff.mp (hreads t ht)
  exact ⟨value, hvalue⟩

/-- Whatever value data are decoded from, each field of them is decoded from some value. -/
theorem exists_value_of_decode {v : Json} {data : α} (hdata : shape.decode v = .ok data) :
    ∀ t ∈ table, ∃ value, t.decoder value = .ok (t.get data) := by
  cases v with
  | object members => exact h.exists_value_of_object hdata
  | array items =>
    obtain ⟨hlength, hgood, hend⟩ := (h.array_ok_iff).mp ⟨data, hdata⟩
    rw [h.decode_array hlength hgood hend] at hdata
    exact h.exists_value_of_object hdata
  | _ => cases hdata

end Shape.Lawful

/-- A decoder of data with the declared fields, as objects and as arrays. -/
structure Decoder.Follows {α : Type} (decode : Decoder α) (table : List (Declaration α)) :
    Prop where
  /-- An object is taken if and only if no value that is given for a field is bad and every field
      without a default is there. -/
  ok_iff : ∀ members, (∃ data, decode (.object members) = .ok data) ↔
    Accepted table (givenBy members) ∧
      ∀ t ∈ table, t.ifAbsent = none → givenBy members t.name ≠ none
  /-- The data have in each field what its value is decoded to, or its default. -/
  reads : ∀ members data, decode (.object members) = .ok data ↔
    ∀ t ∈ table, t.Reads (givenBy members) data
  /-- Keys that are not fields never change the result, nor does the order of the keys. -/
  unknown : ∀ members members', (∀ t ∈ table, givenBy members t.name = givenBy members' t.name) →
    decode (.object members) = decode (.object members')
  /-- To leave out a field with a default is the same as to give its default. -/
  absent : ∀ members, ∀ t ∈ table, givenBy members t.name = none → ∀ value,
    t.ifAbsent = some value →
      decode (.object (members ++ [(t.name, value)])) = decode (.object members)
  /-- If a value is bad, the fault is that of the bad value with the least key. -/
  bad : ∀ members, ¬ Accepted table (givenBy members) →
    ∃ t ∈ table, ∃ value fault, givenBy members t.name = some value ∧
      t.decoder value = .error fault ∧
      (∀ t' ∈ table, t'.name < t.name → ∀ value', givenBy members t'.name = some value' →
        t'.Accepts value') ∧
      decode (.object members) = .error fault
  /-- If none is bad, the fault is the first missing field in the order of declaration. -/
  missing : ∀ members, Accepted table (givenBy members) → ∀ before t after,
    table = before ++ t :: after → t.ifAbsent = none → givenBy members t.name = none →
    (∀ t' ∈ before, t'.ifAbsent = none → givenBy members t'.name ≠ none) →
      decode (.object members) = .error (.missingField t.name)
  /-- An array is taken if and only if its items are good and nothing is missing behind them but
      fields that may be left out at the end. -/
  array_ok_iff : ∀ items, (∃ data, decode (.array items) = .ok data) ↔
    items.length ≤ table.length ∧ (∀ p ∈ table.zip items, p.1.Accepts p.2) ∧
      ∀ t ∈ table.drop items.length, t.mayEnd = true
  /-- The values of an object in the order of declaration, up to ones at the end that may be left
      out and hold their default, are decoded to the same data. -/
  array : ∀ members kept front back data, table = front ++ back →
    List.Forall₂ (fun t value => givenBy members t.name = some value) front kept →
    (∀ t ∈ back, t.mayEnd = true ∧
      ∃ value, givenBy members t.name = some value ∧ t.HoldsDefault value) →
    decode (.object members) = .ok data → decode (.array kept) = .ok data

namespace Shape.Lawful

variable (h : shape.Lawful table draft)
include h

theorem decode_absent {members : List (String × Json)} {t : Declaration α} (ht : t ∈ table)
    (hnone : givenBy members t.name = none) {value : Json} (hifAbsent : t.ifAbsent = some value) :
    shape.decode (.object (members ++ [(t.name, value)])) = shape.decode (.object members) := by
  apply h.decode_congr
  intro t' ht'
  by_cases hname : t'.name = t.name
  · obtain rfl := List.inj_on_of_nodup_map h.nodup ht' ht hname
    rw [Declaration.outcome?_of_absent hnone hifAbsent]
    apply Declaration.outcome?_of_given
    rw [givenBy_append_singleton, Function.update_self]
  · rw [Declaration.outcome?, Declaration.value?, givenBy_append_singleton,
      Function.update_of_ne hname]
    rfl

theorem decode_missing {members : List (String × Json)} (hgood : Accepted table (givenBy members))
    {before after : List (Declaration α)} {t : Declaration α}
    (htable : table = before ++ t :: after) (hifAbsent : t.ifAbsent = none)
    (hnone : givenBy members t.name = none)
    (hbefore : ∀ t' ∈ before, t'.ifAbsent = none → givenBy members t'.name ≠ none) :
    shape.decode (.object members) = .error (.missingField t.name) := by
  apply h.decode_of_verdict
  apply Verdict.missing ((h.accepted_iff).mp hgood)
  refine ⟨before, after, htable, ?_, ?_⟩
  · exact Declaration.outcome?_eq_none_iff.mpr ⟨hnone, hifAbsent⟩
  · intro t' ht' hnone'
    obtain ⟨hgiven, hifAbsent'⟩ := Declaration.outcome?_eq_none_iff.mp hnone'
    exact hbefore t' ht' hifAbsent' hgiven

theorem decode_kept {members : List (String × Json)} {kept : List Json}
    {front back : List (Declaration α)} {data : α} (htable : table = front ++ back)
    (hkept : List.Forall₂ (fun t value => givenBy members t.name = some value) front kept)
    (hback : ∀ t ∈ back, t.mayEnd = true ∧
      ∃ value, givenBy members t.name = some value ∧ t.HoldsDefault value)
    (hdata : shape.decode (.object members) = .ok data) :
    shape.decode (.array kept) = .ok data := by
  have hlength : front.length = kept.length := hkept.length_eq
  have hzip : table.zip kept = front.zip kept := by
    have happend : (front ++ back).zip (kept ++ []) = front.zip kept ++ back.zip [] :=
      List.zip_append hlength
    rwa [List.append_nil, List.zip_nil_right, List.append_nil, ← htable] at happend
  have hdrop : table.drop kept.length = back := by rw [htable, ← hlength, List.drop_left]
  have hvalue : ∀ p ∈ table.zip kept, givenBy members p.1.name = some p.2 := by
    rw [hzip]
    exact fun p hp => (List.forall₂_iff_zip.mp hkept).2 hp
  obtain ⟨hgood, -⟩ := (h.ok_iff).mp ⟨data, hdata⟩
  rw [h.decode_array, ← hdata]
  · apply h.decode_congr
    intro t ht
    rcases mem_zip_or_mem_drop kept ht with ⟨value, hmem⟩ | hmem
    · rw [Declaration.outcome?_of_given (hvalue _ hmem),
        Declaration.outcome?_of_given ((h.givenBy_zip_eq_some_iff ht).mpr hmem)]
    · -- The array ends before this field, so that its default stands for it.
      rw [hdrop] at hmem
      obtain ⟨-, value, hgiven, other, hother, heq⟩ := hback t hmem
      rw [Declaration.outcome?_of_given hgiven, heq]
      apply Declaration.outcome?_of_absent _ hother
      rw [Option.eq_none_iff_forall_ne_some]
      intro value' hvalue'
      have hfront := (h.givenBy_zip_eq_some_iff ht).mp hvalue'
      rw [hzip] at hfront
      have hdisjoint := List.nodup_append.mp (htable ▸ h.nodup.of_map)
      exact hdisjoint.2.2 t (List.of_mem_zip hfront).1 t hmem rfl
  · rw [htable, List.length_append, hlength]
    exact Nat.le_add_right _ _
  · intro p hp
    exact hgood p.1 (List.of_mem_zip hp).1 p.2 (hvalue p hp)
  · rw [hdrop]
    exact fun t ht => (hback t ht).1

/-- Decoding by a lawful shape follows the declarations. -/
theorem follows : Decoder.Follows shape.decode table where
  ok_iff _ := h.ok_iff
  reads members data := by
    rw [← h.verdict_iff]
    constructor
    · rintro (hreads | _ | _)
      exact hreads
    · exact Verdict.taken
  unknown members members' hsame := by
    apply h.decode_congr
    intro t ht
    rw [Declaration.outcome?, Declaration.value?, hsame t ht]
    rfl
  absent _ _ ht hnone _ hifAbsent := h.decode_absent ht hnone hifAbsent
  bad members hbad := by
    obtain ⟨t, ht, value, fault, hvalue, hfault, hleast⟩ := exists_least_refused hbad
    exact ⟨t, ht, value, fault, hvalue, hfault, hleast, h.decode_of_refused ht hvalue hfault hleast⟩
  missing _ hgood _ _ _ htable hifAbsent hnone hbefore :=
    h.decode_missing hgood htable hifAbsent hnone hbefore
  array_ok_iff _ := h.array_ok_iff
  array _ _ _ _ _ htable hkept hback hdata := h.decode_kept htable hkept hback hdata

end Shape.Lawful

end TapeRing

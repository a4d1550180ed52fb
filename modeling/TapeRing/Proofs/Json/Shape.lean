import Mathlib.Data.List.Forall2
import Mathlib.Data.Set.Finite.Lemmas
import Mathlib.Data.String.Basic
import Mathlib.Logic.Function.Basic
import TapeRing.Proofs.Json.Members

/-! # Data with named fields

A declaration says of a field how its value is decoded, where it is found in the data, and what
stands for it when it is left out. A shape is lawful for a list of declarations if its drafts are
determined by the values that are given for the declared names, whatever the order in which they
have been put in. Then an object is decoded to what its members say (`Lawful.decode_of_accepted`),
or refused for the least of its bad keys (`Lawful.decode_of_refused`), and an array is decoded like
an object with its items as members. -/

namespace TapeRing

/-- A field of data of type `α`. -/
structure Declaration (α : Type) where
  name : String
  {Value : Type}
  decoder : Decoder Value
  /-- The field of the data. -/
  get : α → Value
  /-- What stands for the value if it is left out of an object. -/
  ifAbsent : Option Json
  /-- At the end of an array the value may be left out. -/
  mayEnd : Bool

/-- Values by the names of fields. -/
abbrev Given := String → Option Json

/-- The values of an object by their keys. -/
def givenBy (members : List (String × Json)) : Given := fun name =>
  (Json.object members).member? name

/-- Gives values to names, later ones in place of earlier ones. -/
def Given.give (given : Given) (members : List (String × Json)) : Given :=
  members.foldl (fun given m => Function.update given m.1 (some m.2)) given

theorem give_of_nodup {members : List (String × Json)} (h : (members.map Prod.fst).Nodup) :
    ∀ given : Given, given.give members = fun name => (members.lookup name).or (given name) := by
  induction members with
  | nil => intro given; rfl
  | cons m members ih =>
    intro given
    obtain ⟨hfresh, hrest⟩ := List.nodup_cons.mp h
    have hgive : given.give (m :: members) =
        Given.give (Function.update given m.1 (some m.2)) members := rfl
    rw [hgive, ih hrest]
    funext name
    rw [lookup_cons]
    by_cases hname : name = m.1
    · subst hname
      have hnone : members.lookup m.1 = none := by
        rw [Option.eq_none_iff_forall_ne_some]
        intro value hvalue
        exact hfresh (List.mem_map.mpr ⟨(m.1, value), mem_of_lookup_eq_some hvalue, rfl⟩)
      rw [hnone, Function.update_self, if_pos rfl]
      rfl
    · rw [Function.update_of_ne hname, if_neg hname]

theorem givenBy_append_singleton (members : List (String × Json)) (m : String × Json) :
    givenBy (members ++ [m]) = Function.update (givenBy members) m.1 (some m.2) := by
  funext name
  by_cases h : name = m.1
  · subst h
    simp [givenBy, Json.member?]
  · have hother : ¬ m.1 = name := fun heq => h heq.symm
    simp [givenBy, Json.member?, h, hother]

/-- The members of an object give its values. -/
theorem give_none (members : List (String × Json)) :
    Given.give (fun _ => none) members = givenBy members := by
  induction members using List.reverseRecOn with
  | nil => rfl
  | append_singleton members m ih =>
    rw [givenBy_append_singleton, ← ih, Given.give, List.foldl_append]
    rfl

theorem givenBy_of_nodup {members : List (String × Json)} (h : (members.map Prod.fst).Nodup)
    (name : String) : givenBy members name = members.lookup name := by
  rw [← give_none, give_of_nodup h]
  exact Option.or_none

/-- Put in the order of their keys, the members of an object give its values. -/
theorem give_sortMembers (members : List (String × Json)) :
    Given.give (fun _ => none) (sortMembers members) = givenBy members := by
  rw [give_of_nodup (ascending_sortMembers members).nodup]
  funext name
  rw [lookup_sortMembers, Option.or_none, givenBy]

theorem givenBy_of_mem {members : List (String × Json)} {m : String × Json}
    (h : m ∈ sortMembers members) : givenBy members m.1 = some m.2 := by
  rw [givenBy, ← lookup_sortMembers]
  exact lookup_eq_some_of_mem (ascending_sortMembers members).nodup h

namespace Declaration

variable {α : Type}

/-- The value can be decoded. -/
def Accepts (t : Declaration α) (value : Json) : Prop :=
  ∃ b, t.decoder value = .ok b

/-- The value is decoded to what stands for one that is left out. -/
def HoldsDefault (t : Declaration α) (value : Json) : Prop :=
  ∃ other, t.ifAbsent = some other ∧ t.decoder value = t.decoder other

/-- The value that is given, or what stands for it. -/
def value? (t : Declaration α) (given : Given) : Option Json :=
  (given t.name).or t.ifAbsent

/-- What the value of the field is decoded to. -/
def outcome? (t : Declaration α) (given : Given) : Option (Except DecodeFault t.Value) :=
  (t.value? given).map t.decoder

/-- The first declaration in the order of the table whose value is missing. -/
def FirstMissing (t : Declaration α) (table : List (Declaration α)) (given : Given) : Prop :=
  ∃ before after, table = before ++ t :: after ∧ t.outcome? given = none ∧
    ∀ t' ∈ before, t'.outcome? given ≠ none

/-- The data have what the value of the field is decoded to. -/
def Reads (t : Declaration α) (given : Given) (data : α) : Prop :=
  t.outcome? given = some (.ok (t.get data))

end Declaration

/-- No value that is given for a declared name is bad. -/
def Accepted {α : Type} (table : List (Declaration α)) (given : Given) : Prop :=
  ∀ t ∈ table, ∀ value, given t.name = some value → t.Accepts value

/-- The values that are given for declared names are decoded alike. -/
def DecodedAlike {α : Type} (table : List (Declaration α)) (given given' : Given) : Prop :=
  ∀ t ∈ table, (given t.name).map t.decoder = (given' t.name).map t.decoder

theorem DecodedAlike.update {α : Type} {table : List (Declaration α)} {given given' : Given}
    (h : DecodedAlike table given given') {name : String} {value value' : Json}
    (hvalue : ∀ t ∈ table, t.name = name → t.decoder value = t.decoder value') :
    DecodedAlike table (Function.update given name (some value))
      (Function.update given' name (some value')) := by
  intro t ht
  by_cases hname : t.name = name
  · rw [hname, Function.update_self, Function.update_self, Option.map_some, Option.map_some,
      hvalue t ht hname]
  · rw [Function.update_of_ne hname, Function.update_of_ne hname]
    exact h t ht

/-- A field does what is declared, to the drafts that values lead to. -/
structure Field.Meets {σ α : Type} (field : Field σ) (draft : Given → σ) (t : Declaration α) :
    Prop where
  name_eq : field.name = t.name
  mayEnd_eq : field.mayEnd = t.mayEnd
  fill_eq : ∀ value given, field.fill value (draft given) =
    (t.decoder value).map fun _ => draft (Function.update given t.name (some value))

namespace Shape

/-- The fields of a shape are as declared, and its drafts hold what the given values are decoded
    to. -/
structure Lawful {σ α : Type} (shape : Shape σ α) (table : List (Declaration α))
    (draft : Given → σ) : Prop where
  fields : List.Forall₂ (fun field t => field.Meets draft t) shape.fields table
  nodup : (table.map Declaration.name).Nodup
  blank_eq : draft (fun _ => none) = shape.blank
  draft_congr : ∀ given given', DecodedAlike table given given' → draft given = draft given'
  finish_cases : ∀ given, Accepted table given →
    (∃ t : Declaration α, t.FirstMissing table given ∧
      shape.finish (draft given) = .error (.missingField t.name)) ∨
    ∃ data, shape.finish (draft given) = .ok data ∧ ∀ t ∈ table, t.Reads given data
  ext : ∀ data data' : α, (∀ t ∈ table, t.get data = t.get data') → data = data'
  accepts_ifAbsent : ∀ t ∈ table, ∀ value, t.ifAbsent = some value → t.Accepts value
  ifAbsent_of_mayEnd : ∀ t ∈ table, t.mayEnd = true → t.ifAbsent ≠ none

variable {σ α : Type} {shape : Shape σ α} {table : List (Declaration α)} {draft : Given → σ}

/-! ## Fields by name -/

theorem find?_of_forall₂ {fields : List (Field σ)}
    (h : List.Forall₂ (fun field t => field.Meets draft t) fields table)
    (hnodup : (table.map Declaration.name).Nodup) {t : Declaration α} (ht : t ∈ table) :
    ∃ field, fields.find? (·.name = t.name) = some field ∧ field.Meets draft t := by
  induction h with
  | nil => cases ht
  | @cons field t' fields table hfield hrest ih =>
    obtain ⟨hfresh, hnodup⟩ := List.nodup_cons.mp hnodup
    rcases List.mem_cons.mp ht with rfl | ht
    · exact ⟨field, List.find?_cons_of_pos (by simpa using hfield.name_eq), hfield⟩
    · have hne : field.name ≠ t.name := by
        rw [hfield.name_eq]
        intro heq
        exact hfresh (heq ▸ List.mem_map_of_mem ht)
      rw [List.find?_cons_of_neg (by simpa using hne)]
      exact ih hnodup ht

theorem find?_eq_none_of_forall₂ {fields : List (Field σ)}
    (h : List.Forall₂ (fun field t => field.Meets draft t) fields table) {name : String}
    (hname : name ∉ table.map Declaration.name) :
    fields.find? (·.name = name) = none := by
  induction h with
  | nil => rfl
  | @cons field t fields table hfield hrest ih =>
    rw [List.map_cons, List.mem_cons, not_or] at hname
    have hne : field.name ≠ name := fun heq => hname.1 (heq.symm.trans hfield.name_eq)
    rw [List.find?_cons_of_neg (by simpa using hne)]
    exact ih hname.2

namespace Lawful

variable (h : shape.Lawful table draft)
include h

theorem fillMember_of_mem {t : Declaration α} (ht : t ∈ table) (value : Json) (given : Given) :
    shape.fillMember (draft given) (t.name, value) =
      (t.decoder value).map fun _ => draft (Function.update given t.name (some value)) := by
  obtain ⟨field, hfind, hfield⟩ := find?_of_forall₂ h.fields h.nodup ht
  rw [fillMember, hfind]
  exact hfield.fill_eq value given

theorem fillMember_of_not_mem {name : String} (hname : name ∉ table.map Declaration.name)
    (value : Json) (given : Given) :
    shape.fillMember (draft given) (name, value) =
      .ok (draft (Function.update given name (some value))) := by
  rw [fillMember, find?_eq_none_of_forall₂ h.fields hname]
  refine congrArg Except.ok (h.draft_congr _ _ fun t ht => ?_)
  have hne : t.name ≠ name := fun heq => hname (heq ▸ List.mem_map_of_mem ht)
  rw [Function.update_of_ne hne]

/-! ## Objects -/

/-- Members without a bad one are put into the draft one after another. -/
theorem foldlM_fillMember : ∀ (members : List (String × Json)) (given : Given),
    (∀ m ∈ members, ∀ t ∈ table, t.name = m.1 → t.Accepts m.2) →
    members.foldlM shape.fillMember (draft given) = .ok (draft (given.give members)) := by
  intro members
  induction members with
  | nil => intro given _; rfl
  | cons m members ih =>
    intro given hgood
    have hfill : shape.fillMember (draft given) m =
        .ok (draft (Function.update given m.1 (some m.2))) := by
      obtain ⟨key, value⟩ := m
      by_cases hkey : key ∈ table.map Declaration.name
      · obtain ⟨t, ht, rfl⟩ := List.mem_map.mp hkey
        obtain ⟨b, hb⟩ := hgood (t.name, value) List.mem_cons_self t ht rfl
        rw [h.fillMember_of_mem ht, hb]
        rfl
      · exact h.fillMember_of_not_mem hkey value given
    rw [List.foldlM_cons, hfill]
    exact ih _ fun m' hm' => hgood m' (List.mem_cons_of_mem m hm')

/-- An object without a bad value is decoded from the draft that its values lead to. -/
theorem decode_of_accepted {members : List (String × Json)}
    (hgood : Accepted table (givenBy members)) :
    shape.decode (.object members) = shape.finish (draft (givenBy members)) := by
  have hmembers : ∀ m ∈ sortMembers members, ∀ t ∈ table, t.name = m.1 → t.Accepts m.2 := by
    intro m hm t ht hname
    refine hgood t ht m.2 ?_
    rw [hname]
    exact givenBy_of_mem hm
  rw [decode, ← h.blank_eq, h.foldlM_fillMember _ _ hmembers, give_sortMembers]

/-- An object is refused for the least of its keys with a bad value. -/
theorem decode_of_refused {members : List (String × Json)} {t : Declaration α} (ht : t ∈ table)
    {value : Json} {fault : DecodeFault} (hvalue : givenBy members t.name = some value)
    (hfault : t.decoder value = .error fault)
    (hleast : ∀ t' ∈ table, t'.name < t.name → ∀ value', givenBy members t'.name = some value' →
      t'.Accepts value') :
    shape.decode (.object members) = .error fault := by
  have hasc := ascending_sortMembers members
  have hmem : (t.name, value) ∈ sortMembers members := by
    apply mem_of_lookup_eq_some
    rw [lookup_sortMembers]
    exact hvalue
  obtain ⟨before, after, hsplit⟩ := List.append_of_mem hmem
  have hbefore : ∀ m ∈ before, ∀ t' ∈ table, t'.name = m.1 → t'.Accepts m.2 := by
    intro m hm t' ht' hname
    have hlt : m.1 < t.name := by
      rw [hsplit] at hasc
      exact (List.pairwise_append.mp hasc).2.2 m hm _ List.mem_cons_self
    refine hleast t' ht' (hname ▸ hlt) m.2 ?_
    rw [hname]
    exact givenBy_of_mem (hsplit ▸ List.mem_append_left _ hm)
  -- The members in front of the bad one are put into the draft; what follows it is never reached.
  rw [decode, ← h.blank_eq, hsplit, List.foldlM_append, h.foldlM_fillMember _ _ hbefore]
  simp only [bind, Except.bind, List.foldlM_cons, h.fillMember_of_mem ht, hfault, Except.map]

omit h in
/-- Of bad values there is one with the least key. -/
theorem exists_least_refused {given : Given} (hbad : ¬ Accepted table given) :
    ∃ t ∈ table, ∃ value fault, given t.name = some value ∧ t.decoder value = .error fault ∧
      ∀ t' ∈ table, t'.name < t.name → ∀ value', given t'.name = some value' →
        t'.Accepts value' := by
  have hsome : ∃ t ∈ table, ∃ value, given t.name = some value ∧ ¬ t.Accepts value := by
    simpa [Accepted] using hbad
  let bad := {t | t ∈ table ∧ ∃ value, given t.name = some value ∧ ¬ t.Accepts value}
  have hfinite : bad.Finite := (List.finite_toSet table).subset fun t ht => ht.1
  obtain ⟨t, ⟨ht, value, hvalue, hrefused⟩, hleast⟩ :=
    Set.exists_min_image bad Declaration.name hfinite hsome
  rcases hdecoded : t.decoder value with fault | b
  · refine ⟨t, ht, value, fault, hvalue, hdecoded, fun t' ht' hlt value' hvalue' => ?_⟩
    by_contra hrefused'
    exact absurd hlt (not_lt.mpr (hleast t' ⟨ht', value', hvalue', hrefused'⟩))
  · exact absurd ⟨b, hdecoded⟩ hrefused

/-! ## Arrays -/

omit h in
/-- Items without a bad one are put into the draft one after another. At their end only fields
    that may be left out can be missing. -/
theorem fillItems_of_accepted (length : Nat) {fields : List (Field σ)}
    {rest : List (Declaration α)}
    (hfields : List.Forall₂ (fun field t => field.Meets draft t) fields rest) :
    ∀ (done : Nat) (items : List Json) (given : Given), items.length ≤ rest.length →
      (∀ p ∈ rest.zip items, p.1.Accepts p.2) →
      (∀ t ∈ rest.drop items.length, t.mayEnd = true) →
      shape.fillItems length done fields items (draft given) =
        .ok (draft (given.give ((rest.map Declaration.name).zip items))) := by
  -- By the fields that are still to come: the items may end before them, but not after them.
  induction hfields with
  | nil =>
    intro done items given hlength _ _
    obtain rfl : items = [] := List.length_eq_zero_iff.mp (Nat.le_zero.mp hlength)
    rfl
  | @cons field t fields rest hfield hrest ih =>
    intro done items given hlength hgood hend
    cases items with
    | nil =>
      have hmayEnd : field.mayEnd = true := by
        rw [hfield.mayEnd_eq]
        exact hend t List.mem_cons_self
      rw [fillItems, if_pos hmayEnd]
      exact (ih (done + 1) [] given (Nat.zero_le _) (by simp)
        fun t' ht' => hend t' (List.mem_cons_of_mem t ht')).trans (by rw [List.zip_nil_right]; rfl)
    | cons item items =>
      obtain ⟨b, hb⟩ := hgood (t, item) List.mem_cons_self
      have hfill : field.fill item (draft given) =
          .ok (draft (Function.update given t.name (some item))) := by
        rw [hfield.fill_eq, hb]
        rfl
      rw [fillItems, hfill]
      exact ih (done + 1) items _ (Nat.le_of_succ_le_succ hlength)
        (fun p hp => hgood p (List.mem_cons_of_mem _ hp)) hend

omit h in
/-- Of an array that is taken the items are good, and the missing ones may be left out. -/
theorem accepted_of_fillItems (length : Nat) {fields : List (Field σ)}
    {rest : List (Declaration α)}
    (hfields : List.Forall₂ (fun field t => field.Meets draft t) fields rest) :
    ∀ {done : Nat} {items : List Json} {given : Given} {filled : σ},
      shape.fillItems length done fields items (draft given) = .ok filled →
        items.length ≤ rest.length ∧ (∀ p ∈ rest.zip items, p.1.Accepts p.2) ∧
          ∀ t ∈ rest.drop items.length, t.mayEnd = true := by
  induction hfields with
  | nil =>
    intro done items given filled hfilled
    cases items with
    | nil => exact ⟨Nat.le_refl _, by simp, by simp⟩
    | cons item items => cases hfilled
  | @cons field t fields rest hfield hrest ih =>
    intro done items given filled hfilled
    cases items with
    | nil =>
      rw [fillItems] at hfilled
      split at hfilled
      · rename_i hmayEnd
        obtain ⟨-, -, hend⟩ := ih hfilled
        refine ⟨Nat.zero_le _, by simp, fun t' ht' => ?_⟩
        rcases List.mem_cons.mp ht' with rfl | ht'
        · rw [← hfield.mayEnd_eq]
          exact hmayEnd
        · exact hend t' ht'
      · cases hfilled
    | cons item items =>
      rw [fillItems, hfield.fill_eq] at hfilled
      rcases hdecoded : t.decoder item with fault | b
      · rw [hdecoded] at hfilled
        cases hfilled
      · rw [hdecoded] at hfilled
        obtain ⟨hlength, hgood, hend⟩ := ih hfilled
        refine ⟨Nat.succ_le_succ hlength, fun p hp => ?_, hend⟩
        rcases List.mem_cons.mp hp with rfl | hp
        · exact ⟨b, hdecoded⟩
        · exact hgood p hp

/-- Items that are decoded alike lead to the same draft or to the same fault. -/
theorem fillItems_congr (length : Nat) {fields : List (Field σ)} {rest : List (Declaration α)}
    (hfields : List.Forall₂ (fun field t => field.Meets draft t) fields rest)
    (hsub : ∀ t ∈ rest, t ∈ table) :
    ∀ (done : Nat) (items items' : List Json) (given given' : Given),
      items.length = items'.length →
      (∀ p ∈ rest.zip (items.zip items'), p.1.decoder p.2.1 = p.1.decoder p.2.2) →
      DecodedAlike table given given' →
      shape.fillItems length done fields items (draft given) =
        shape.fillItems length done fields items' (draft given') := by
  induction hfields with
  | nil =>
    intro done items items' given given' hlength _ hgiven
    rw [h.draft_congr given given' hgiven]
    cases items <;> cases items' <;> first | rfl | cases hlength
  | @cons field t fields rest hfield hrest ih =>
    intro done items items' given given' hlength halike hgiven
    have hsub' := fun t' ht' => hsub t' (List.mem_cons_of_mem t ht')
    cases items with
    | nil =>
      obtain rfl : items' = [] := List.length_eq_zero_iff.mp hlength.symm
      rw [fillItems, fillItems, ih hsub' (done + 1) [] [] given given' rfl (by simp) hgiven]
    | cons item items =>
      cases items' with
      | nil => cases hlength
      | cons item' items' =>
        have hitem : t.decoder item = t.decoder item' :=
          halike (t, item, item') List.mem_cons_self
        rw [fillItems, fillItems, hfield.fill_eq, hfield.fill_eq, hitem]
        cases t.decoder item' with
        | error fault => rfl
        | ok b =>
          apply ih hsub' (done + 1) items items' _ _ (Nat.succ.inj hlength)
          · exact fun p hp => halike p (List.mem_cons_of_mem _ hp)
          · apply hgiven.update
            intro t' ht' hname
            obtain rfl := List.inj_on_of_nodup_map h.nodup ht' (hsub t List.mem_cons_self) hname
            exact hitem

end Lawful

end Shape

end TapeRing

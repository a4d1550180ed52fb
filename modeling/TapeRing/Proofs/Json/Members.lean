import TapeRing.Json.Decoder

/-! # Members in order

Members that are put in the order of their keys have ascending keys (`ascending_sortMembers`), and
each key has the value of the last member with that key (`lookup_sortMembers`). -/

namespace TapeRing

/-- The keys of members get greater from each member to the next. -/
def Ascending (members : List (String × Json)) : Prop :=
  members.Pairwise fun m m' => m.1 < m'.1

theorem mem_insertMember {key : String} {value : Json} {m : String × Json} :
    ∀ {members : List (String × Json)}, m ∈ insertMember key value members →
      m = (key, value) ∨ m ∈ members := by
  intro members
  induction members with
  | nil => intro h; exact Or.inl (List.mem_singleton.mp h)
  | cons first rest ih =>
    intro h
    unfold insertMember at h
    split at h
    · exact List.mem_cons.mp h
    · split at h
      · exact (List.mem_cons.mp h).imp_right (List.mem_cons_of_mem first)
      · rcases List.mem_cons.mp h with rfl | h
        · exact Or.inr List.mem_cons_self
        · exact (ih h).imp_right (List.mem_cons_of_mem first)

theorem Ascending.insertMember (key : String) (value : Json) :
    ∀ {members : List (String × Json)}, Ascending members →
      Ascending (insertMember key value members) := by
  intro members
  induction members with
  | nil => intro _; exact List.pairwise_singleton _ _
  | cons first rest ih =>
    intro h
    obtain ⟨hfirst, hrest⟩ := List.pairwise_cons.mp h
    unfold TapeRing.insertMember
    split
    · rename_i hlt
      refine List.pairwise_cons.mpr ⟨?_, h⟩
      intro m hm
      rcases List.mem_cons.mp hm with rfl | hm
      · exact hlt
      · exact String.lt_trans hlt (hfirst m hm)
    · rename_i hnlt
      split
      · rename_i heq
        exact List.pairwise_cons.mpr ⟨fun m hm => heq ▸ hfirst m hm, hrest⟩
      · rename_i hne
        refine List.pairwise_cons.mpr ⟨?_, ih hrest⟩
        intro m hm
        rcases mem_insertMember hm with rfl | hm
        · rcases Std.lt_trichotomy key first.1 with hlt | heq | hgt
          · exact absurd hlt hnlt
          · exact absurd heq hne
          · exact hgt
        · exact hfirst m hm

theorem lookup_cons {β : Type} (name : String) (m : String × β) (members : List (String × β)) :
    (m :: members).lookup name = if name = m.1 then some m.2 else members.lookup name := by
  obtain ⟨key, value⟩ := m
  by_cases h : name = key
  · subst h
    rw [List.lookup_cons_self, if_pos rfl]
  · rw [List.lookup_cons, beq_false_of_ne h, if_neg h]

theorem lookup_insertMember (key : String) (value : Json) (members : List (String × Json))
    (name : String) : (insertMember key value members).lookup name =
      if name = key then some value else members.lookup name := by
  induction members with
  | nil => exact lookup_cons name (key, value) []
  | cons first rest ih =>
    unfold insertMember
    split
    · exact lookup_cons name (key, value) (first :: rest)
    · split
      · rename_i heq
        rw [lookup_cons, lookup_cons, heq]
        by_cases h : name = first.1
        · rw [if_pos h, if_pos h]
        · rw [if_neg h, if_neg h, if_neg h]
      · rename_i hne
        rw [lookup_cons, lookup_cons, ih]
        by_cases h : name = first.1
        · have hkey : name ≠ key := fun hname => hne (hname.symm.trans h)
          rw [if_pos h, if_pos h, if_neg hkey]
        · rw [if_neg h, if_neg h]

theorem ascending_foldl_insertMember (members : List (String × Json)) :
    ∀ sorted : List (String × Json), Ascending sorted →
      Ascending (members.foldl (fun sorted (key, value) => insertMember key value sorted)
        sorted) := by
  induction members with
  | nil => intro sorted h; exact h
  | cons first rest ih => intro sorted h; exact ih _ (h.insertMember first.1 first.2)

theorem ascending_sortMembers (members : List (String × Json)) :
    Ascending (sortMembers members) :=
  ascending_foldl_insertMember members [] List.Pairwise.nil

theorem lookup_foldl_insertMember (name : String) (members : List (String × Json)) :
    ∀ sorted : List (String × Json),
      (members.foldl (fun sorted (key, value) => insertMember key value sorted) sorted).lookup
          name = ((Json.object members).member? name).or (sorted.lookup name) := by
  induction members with
  | nil => intro sorted; rfl
  | cons first rest ih =>
    intro sorted
    rw [List.foldl_cons, ih, lookup_insertMember]
    simp only [Json.member?, List.reverse_cons, List.find?_append, List.find?_singleton]
    by_cases h : name = first.1
    · subst h
      cases rest.reverse.find? (·.1 = first.1) <;> simp
    · have hother : ¬ first.1 = name := fun heq => h heq.symm
      cases rest.reverse.find? (·.1 = name) <;> simp [h, hother]

/-- Each key has the value of the last member with that key. -/
theorem lookup_sortMembers (name : String) (members : List (String × Json)) :
    (sortMembers members).lookup name = (Json.object members).member? name := by
  rw [sortMembers, lookup_foldl_insertMember, List.lookup_nil, Option.or_none]

theorem Ascending.nodup {members : List (String × Json)} (h : Ascending members) :
    (members.map Prod.fst).Nodup := by
  rw [List.Nodup, List.pairwise_map]
  refine h.imp ?_
  intro m m' hlt heq
  rw [heq] at hlt
  exact String.lt_irrefl _ hlt

/-- Among different keys a member is found by its key. -/
theorem lookup_eq_some_of_mem {members : List (String × Json)}
    (h : (members.map Prod.fst).Nodup) {m : String × Json} (hmem : m ∈ members) :
    members.lookup m.1 = some m.2 := by
  induction members with
  | nil => cases hmem
  | cons first rest ih =>
    obtain ⟨hfresh, hrest⟩ := List.nodup_cons.mp h
    rw [lookup_cons]
    rcases List.mem_cons.mp hmem with rfl | hmem
    · rw [if_pos rfl]
    · have hne : m.1 ≠ first.1 := fun heq => hfresh (heq ▸ List.mem_map_of_mem hmem)
      rw [if_neg hne, ih hrest hmem]

theorem mem_of_lookup_eq_some {members : List (String × Json)} {name : String} {value : Json}
    (h : members.lookup name = some value) : (name, value) ∈ members := by
  induction members with
  | nil => cases h
  | cons first rest ih =>
    rw [lookup_cons] at h
    split at h
    · rename_i heq
      rw [heq, ← Option.some.inj h]
      exact List.mem_cons_self
    · exact List.mem_cons_of_mem _ (ih h)

end TapeRing

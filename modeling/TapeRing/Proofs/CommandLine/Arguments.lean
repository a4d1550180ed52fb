import Mathlib.Data.List.Pairwise
import Mathlib.Data.List.Perm.Basic
import TapeRing.CommandLine.Arguments
import TapeRing.Json.Codec

/-! # Arguments in any order

An assignment is an argument with its value, written as one token. Tokens are judged one after
another, and a positional only later than an option that follows it; still, reading a row of
assignments to different arguments comes to making the assignments (`parse_map_token`). So their
order does not matter (`arguments_parse_in_any_order`). -/

namespace TapeRing.CommandLine

/-! ## Tokens of options -/

/-- A long option with its value in the same token. -/
def longOption (name value : String) : String :=
  "--" ++ name ++ "=" ++ value

theorem ofString_longOption {name : String} (hname : '=' ∉ name.toList) (value : String) :
    Token.ofString (longOption name value) = .long name (some value) := by
  have hkept : ∀ c ∈ name.toList, decide (c ≠ '=') = true := by
    intro c hc
    have hne : c ≠ '=' := by
      rintro rfl
      exact hname hc
    exact decide_eq_true hne
  have hbody : (longOption name value).toList =
      '-' :: '-' :: (name.toList ++ '=' :: value.toList) := by
    simp [longOption]
  have htake : (name.toList ++ '=' :: value.toList).takeWhile (· ≠ '=') = name.toList := by
    rw [List.takeWhile_append_of_pos hkept]
    simp
  have hdrop : (name.toList ++ '=' :: value.toList).dropWhile (· ≠ '=') =
      '=' :: value.toList := by
    rw [List.dropWhile_append_of_pos hkept]
    simp
  unfold Token.ofString
  rw [hbody]
  cases hlist : name.toList ++ '=' :: value.toList with
  | nil => simp at hlist
  | cons c rest =>
    rw [hlist] at htake hdrop
    simp only [htake, hdrop, String.ofList_toList]

theorem ofString_plain {text : String} (htext : text.toList.head? ≠ some '-') :
    Token.ofString text = .plain text := by
  unfold Token.ofString
  split <;> rename_i heq <;> first | rfl | (rw [heq] at htext; exact absurd rfl htext)

/-! ## Assignments -/

/-- An argument with its value. -/
inductive Assignment
  | program (path : String)
  | eval (text : String)
  | processors (count : Nat)
  | halt (policy : HaltPolicy)
  | jumpTable
  | dumpState (path : String)
deriving DecidableEq, Repr

namespace Assignment

/-- The token an assignment is written as. -/
def token : Assignment → String
  | .program path => path
  | .eval text => longOption "eval" text
  | .processors count => longOption "processors" (toString count)
  | .halt policy => longOption "halt" policy.name
  | .jumpTable => "--jump-table"
  | .dumpState path => longOption "dump-state" path

/-- The value can be written as a token and is accepted. -/
def Good : Assignment → Prop
  | .program path => path ≠ "" ∧ path.toList.head? ≠ some '-'
  | .processors count => count < UInt64.size
  | .dumpState path => path ≠ ""
  | .eval _ | .halt _ | .jumpTable => True

/-- The slot that is filled; the flag has none. -/
def slot? : Assignment → Option Slot
  | .program _ => some .program
  | .eval _ => some .eval
  | .processors _ => some .processors
  | .halt _ => some .halt
  | .jumpTable => none
  | .dumpState _ => some .dumpState

end Assignment

namespace Draft

/-- Makes an assignment. -/
def assign (d : Draft) : Assignment → Draft
  | .program path => { d with program := some path }
  | .eval text => { d with eval := some text }
  | .processors count => { d with processors := some count }
  | .halt policy => { d with halt := some policy }
  | .jumpTable => { d with jumpTable := true }
  | .dumpState path => { d with dumpState := some path }

/-- A slot is filled, or the flag is set. -/
def isGiven (d : Draft) : Option Slot → Bool
  | some slot => d.holds slot
  | none => d.jumpTable

theorem isGiven_assign (d : Draft) (x : Assignment) (slot? : Option Slot) :
    (d.assign x).isGiven slot? = (decide (x.slot? = slot?) || d.isGiven slot?) := by
  cases x <;> rcases slot? with _ | slot <;> first | rfl | (cases slot <;> rfl)

/-- Assignments to different arguments can be made in either order. -/
theorem assign_assign {x y : Assignment} (h : x.slot? ≠ y.slot?) (d : Draft) :
    (d.assign x).assign y = (d.assign y).assign x := by
  cases x <;> cases y <;> first | rfl | exact absurd rfl h

end Draft

/-! ## Values -/

theorem parseCount?_toString {count : Nat} (h : count < UInt64.size) :
    parseCount? (toString count) = some count := by
  have hdigits : (toString count).toList = Nat.toDigits 10 count := Nat.toList_repr
  have hdigit : ∀ c ∈ Nat.toDigits 10 count, c.isDigit = true := fun c hc =>
    Nat.isDigit_of_mem_toDigits (by decide) (by decide) hc
  have hunsigned : ∀ rest, Nat.toDigits 10 count ≠ '+' :: rest := by
    intro rest heq
    have hplus := hdigit '+' (heq ▸ List.mem_cons_self)
    cases hplus
  have hvalue : (Nat.toDigits 10 count).foldl (fun n d => 10 * n + (d.toNat - '0'.toNat)) 0 =
      count := Nat.ofDigitChars_ten_toDigits
  unfold parseCount?
  rw [hdigits]
  split
  · rename_i heq
    exact absurd heq (hunsigned _)
  · simp only [hvalue, if_pos h]
    rw [if_neg]
    simpa [Nat.toDigits_ne_nil] using hdigit

theorem parseHalt?_name (policy : HaltPolicy) : parseHalt? policy.name = some policy := by
  cases policy <;> rfl

/-! ## Reading assignments -/

namespace Reading

/-- The draft that a reading comes to once its pending argument is judged. -/
def SettlesTo (r : Reading) (d : Draft) : Prop :=
  r.settle = .ok { draft := d, pending := none, metPositional := d.program.isSome }

variable {r : Reading} {d d' : Draft}

theorem settlesTo_blank : SettlesTo {} {} := rfl

theorem SettlesTo.metPositional_eq (h : r.SettlesTo d) :
    r.metPositional = d.program.isSome := by
  unfold SettlesTo settle at h
  split at h
  · exact congrArg Reading.metPositional (Except.ok.inj h)
  · cases h
  · split at h
    · exact congrArg Reading.metPositional (Except.ok.inj h)
    · cases h

/-- No option is waiting for its value. -/
theorem SettlesTo.pending_ne (h : r.SettlesTo d) (slot : Slot) : r.pending ≠ some (slot, none) := by
  intro hpending
  rw [SettlesTo, settle, hpending] at h
  cases h

theorem SettlesTo.option_takes (h : r.SettlesTo d) {slot : Slot} {value : String}
    (hgive : d.give slot value = .ok d') (hprogram : d'.program = d.program) :
    ∃ r' : Reading, r.option (some (.takes slot)) (some value) = .ok r' ∧ r'.SettlesTo d' := by
  refine ⟨⟨d', none, d.program.isSome⟩, ?_, ?_⟩
  · have hsettle : r.settle = _ := h
    simp only [option, hsettle, hgive]
  · rw [← hprogram]
    rfl

theorem SettlesTo.option_jumpTable (h : r.SettlesTo d) (hfree : d.jumpTable = false) :
    ∃ r' : Reading, r.option (some .jumpTable) none = .ok r' ∧
      r'.SettlesTo (d.assign .jumpTable) := by
  refine ⟨⟨d.assign .jumpTable, none, d.program.isSome⟩, ?_, rfl⟩
  have hsettle : r.settle = _ := h
  simp only [option, hsettle, Draft.setJumpTable, hfree]
  rfl

/-- A positional stays pending until what follows it is met. -/
theorem SettlesTo.plain (h : r.SettlesTo d) {path : String} (hpath : path ≠ "")
    (hfree : d.program = none) :
    ∃ r' : Reading, r.plain path = .ok r' ∧ r'.SettlesTo (d.assign (.program path)) := by
  refine ⟨⟨d, some (.program, some path), true⟩, ?_, ?_⟩
  · have hsettle : r.settle = _ := h
    have hmet : r.metPositional = false := by rw [h.metPositional_eq, hfree]; rfl
    unfold Reading.plain
    split
    · rename_i hpending
      exact absurd hpending (h.pending_ne _)
    · simp only [positional, hmet, hsettle]
      rfl
  · have hne : ¬ path.isEmpty = true := by rwa [String.isEmpty_iff]
    simp only [SettlesTo, settle, Draft.give, Draft.holds, hfree, Draft.store, if_neg hne]
    rfl

theorem tokens_cons_long {text name : String} {value : Option String}
    (h : Token.ofString text = .long name value) (r : Reading) (rest : List String) :
    r.tokens (text :: rest) =
      match r.option (Role.ofName? name) value with
      | .ok r => r.tokens rest
      | .error fault => .error fault := by
  simp only [tokens, h]
  cases r.option (Role.ofName? name) value <;> rfl

theorem tokens_cons_plain {text : String} (h : Token.ofString text = .plain text) (r : Reading)
    (rest : List String) :
    r.tokens (text :: rest) =
      match r.plain text with
      | .ok r => r.tokens rest
      | .error fault => .error fault := by
  simp only [tokens, h]
  cases r.plain text <;> rfl

/-- A token with the value of an option is read as the value's assignment. -/
theorem SettlesTo.tokens_longOption (h : r.SettlesTo d) {name value : String} (slot : Slot)
    (hname : '=' ∉ name.toList) (hrole : Role.ofName? name = some (.takes slot))
    (hfree : d.holds slot = false) (hstore : d.store slot value = .ok d')
    (hprogram : d'.program = d.program) (rest : List String) :
    ∃ r' : Reading, r.tokens (longOption name value :: rest) = r'.tokens rest ∧
      r'.SettlesTo d' := by
  have hgive : d.give slot value = .ok d' := by
    rw [Draft.give, hfree, ← hstore]
    rfl
  obtain ⟨r', hoption, hsettles⟩ := h.option_takes hgive hprogram
  refine ⟨r', ?_, hsettles⟩
  rw [tokens_cons_long (ofString_longOption hname value), hrole, hoption]

/-- The token of an assignment is read as this assignment. -/
theorem SettlesTo.tokens_token (h : r.SettlesTo d) {x : Assignment} (hgood : x.Good)
    (hfree : d.isGiven x.slot? = false) (rest : List String) :
    ∃ r' : Reading, r.tokens (x.token :: rest) = r'.tokens rest ∧ r'.SettlesTo (d.assign x) := by
  cases x with
  | program path =>
    obtain ⟨hpath, hhead⟩ := hgood
    have hnone : d.program = none :=
      Option.isNone_iff_eq_none.mp (Option.isSome_eq_false_iff.mp hfree)
    obtain ⟨r', hplain, hsettles⟩ := h.plain hpath hnone
    refine ⟨r', ?_, hsettles⟩
    rw [Assignment.token, tokens_cons_plain (ofString_plain hhead), hplain]
  | eval text =>
    exact h.tokens_longOption .eval (by decide) rfl hfree rfl rfl rest
  | processors count =>
    have hstore : d.store .processors (toString count) = .ok (d.assign (.processors count)) := by
      simp only [Draft.store, parseCount?_toString hgood]
      rfl
    exact h.tokens_longOption .processors (by decide) rfl hfree hstore rfl rest
  | halt policy =>
    have hstore : d.store .halt policy.name = .ok (d.assign (.halt policy)) := by
      simp only [Draft.store, parseHalt?_name]
      rfl
    exact h.tokens_longOption .halt (by decide) rfl hfree hstore rfl rest
  | jumpTable =>
    obtain ⟨r', hoption, hsettles⟩ := h.option_jumpTable hfree
    refine ⟨r', ?_, hsettles⟩
    have htoken : Token.ofString Assignment.jumpTable.token = .long "jump-table" none := by decide
    rw [tokens_cons_long htoken, show Role.ofName? "jump-table" = some .jumpTable from rfl, hoption]
  | dumpState path =>
    have hne : ¬ path.isEmpty = true := by rwa [String.isEmpty_iff]
    exact h.tokens_longOption .dumpState (by decide) rfl hfree (if_neg hne) rfl rest

/-- Tokens of assignments to different arguments are read as these assignments. -/
theorem tokens_map_token : ∀ (items : List Assignment) (r : Reading) (d : Draft), r.SettlesTo d →
    (∀ x ∈ items, x.Good) → (∀ x ∈ items, d.isGiven x.slot? = false) →
    items.Pairwise (fun x y => x.slot? ≠ y.slot?) →
    ∃ r' : Reading, r.tokens (items.map Assignment.token) = .ok r' ∧
      r'.SettlesTo (items.foldl Draft.assign d) := by
  intro items
  induction items with
  | nil => intro r d h _ _ _; exact ⟨r, rfl, h⟩
  | cons x items ih =>
    intro r d h hgood hfree hdistinct
    obtain ⟨hx, hdistinct⟩ := List.pairwise_cons.mp hdistinct
    obtain ⟨r', htokens, hsettles⟩ := h.tokens_token (hgood x List.mem_cons_self)
      (hfree x List.mem_cons_self) (items.map Assignment.token)
    have hfree' : ∀ y ∈ items, (d.assign x).isGiven y.slot? = false := by
      intro y hy
      rw [Draft.isGiven_assign, hfree y (List.mem_cons_of_mem x hy),
        decide_eq_false (hx y hy), Bool.or_self]
    obtain ⟨r'', hrest, hsettles'⟩ := ih r' (d.assign x) hsettles
      (fun y hy => hgood y (List.mem_cons_of_mem x hy)) hfree' hdistinct
    exact ⟨r'', by rw [List.map_cons, htokens, hrest], hsettles'⟩

end Reading

/-- Reading assignments to different arguments comes to making them. -/
theorem parse_map_token {items : List Assignment} (hgood : ∀ x ∈ items, x.Good)
    (hdistinct : items.Pairwise fun x y => x.slot? ≠ y.slot?) :
    Arguments.parse (items.map Assignment.token) = (items.foldl Draft.assign {}).finish := by
  have hfree : ∀ x ∈ items, Draft.isGiven {} x.slot? = false := by
    intro x _
    cases x <;> rfl
  obtain ⟨r, htokens, hsettles⟩ :=
    Reading.tokens_map_token items {} {} Reading.settlesTo_blank hgood hfree hdistinct
  have hsettle : r.settle = _ := hsettles
  simp only [Arguments.parse, htokens, hsettle]

/-! ## Drafts written out -/

namespace Draft

/-- The assignments that lead to a draft. -/
def assignments (d : Draft) : List Assignment :=
  d.program.toList.map .program ++ (d.eval.toList.map .eval ++
    (d.processors.toList.map .processors ++ (d.halt.toList.map .halt ++
      ((if d.jumpTable then [.jumpTable] else []) ++ d.dumpState.toList.map .dumpState))))

theorem foldl_assign_assignments (d : Draft) : d.assignments.foldl assign {} = d := by
  obtain ⟨program, eval, processors, halt, jumpTable, dumpState⟩ := d
  have hprogram : (program.toList.map .program).foldl assign {} = { program := program } := by
    cases program <;> rfl
  have heval : (eval.toList.map .eval).foldl assign { program := program } =
      { program := program, eval := eval } := by
    cases eval <;> rfl
  have hprocessors :
      (processors.toList.map .processors).foldl assign { program := program, eval := eval } =
        { program := program, eval := eval, processors := processors } := by
    cases processors <;> rfl
  have hhalt : (halt.toList.map .halt).foldl assign
      { program := program, eval := eval, processors := processors } =
        { program := program, eval := eval, processors := processors, halt := halt } := by
    cases halt <;> rfl
  have hjumpTable : (if jumpTable then [Assignment.jumpTable] else []).foldl assign
      { program := program, eval := eval, processors := processors, halt := halt } =
        ⟨program, eval, processors, halt, jumpTable, none⟩ := by
    cases jumpTable <;> rfl
  have hdumpState : (dumpState.toList.map .dumpState).foldl assign
      ⟨program, eval, processors, halt, jumpTable, none⟩ =
        ⟨program, eval, processors, halt, jumpTable, dumpState⟩ := by
    cases dumpState <;> rfl
  simp only [assignments, List.foldl_append, hprogram, heval, hprocessors, hhalt, hjumpTable,
    hdumpState]

/-- No argument is assigned twice. -/
theorem pairwise_assignments (d : Draft) :
    d.assignments.Pairwise fun x y => x.slot? ≠ y.slot? := by
  have hsublist : List.Sublist (d.assignments.map Assignment.slot?)
      ([some .program] ++ ([some .eval] ++ ([some .processors] ++ ([some .halt] ++
        ([none] ++ [some .dumpState]))))) := by
    simp only [assignments, List.map_append]
    refine .append ?_ (.append ?_ (.append ?_ (.append ?_ (.append ?_ ?_))))
    · cases d.program <;> simp [Assignment.slot?]
    · cases d.eval <;> simp [Assignment.slot?]
    · cases d.processors <;> simp [Assignment.slot?]
    · cases d.halt <;> simp [Assignment.slot?]
    · split <;> simp [Assignment.slot?]
    · cases d.dumpState <;> simp [Assignment.slot?]
  exact List.pairwise_map.mp (List.Nodup.sublist hsublist (by decide))

/-- Tokens that are written for a draft lead to it in every order. -/
theorem parse_of_perm {d : Draft} {tokens : List String} (hgood : ∀ x ∈ d.assignments, x.Good)
    (h : tokens.Perm (d.assignments.map Assignment.token)) :
    Arguments.parse tokens = d.finish := by
  obtain ⟨items, rfl, hitems⟩ :
      Relation.Comp (· = List.map Assignment.token ·) List.Perm tokens d.assignments := by
    rw [List.eq_map_comp_perm]
    exact h
  have hdistinct : items.Pairwise fun x y => x.slot? ≠ y.slot? :=
    (hitems.pairwise_iff fun hne => Ne.symm hne).mpr d.pairwise_assignments
  -- Different arguments have different slots, so that the assignments commute.
  have hsymm : Std.Symm fun x y : Assignment =>
      ∀ d : Draft, (d.assign x).assign y = (d.assign y).assign x :=
    ⟨fun x y h d => (h d).symm⟩
  have hcommute := (hdistinct.imp assign_assign).forall_of_forall fun x _ d => rfl
  rw [parse_map_token (fun x hx => hgood x (hitems.mem_iff.mp hx)) hdistinct,
    hitems.foldl_eq' fun x hx y hy d => hcommute hx hy d, foldl_assign_assignments]

end Draft

/-! ## Arguments written out -/

namespace Arguments

/-- The draft that arguments are written from. At their defaults the count and the policy may be
    left out. -/
def draft (a : Arguments) (showCount showHalt : Bool) : Draft where
  program := a.program
  eval := a.eval
  processors := if showCount || a.processors != 1 then some a.processors else none
  halt := if showHalt || a.halt != .firstFinished then some a.halt else none
  jumpTable := a.jumpTable
  dumpState := a.dumpState

/-- The values can be written as tokens: a path of a program is not empty and does not look like an
    option, a path of a dump is not empty, and the count has 64 bits. -/
structure Writable (a : Arguments) : Prop where
  program : ∀ path, a.program = some path → path ≠ "" ∧ path.toList.head? ≠ some '-'
  processors : a.processors < UInt64.size
  dumpState : ∀ path, a.dumpState = some path → path ≠ ""

theorem Writable.good {a : Arguments} (h : a.Writable) (showCount showHalt : Bool) :
    ∀ x ∈ (a.draft showCount showHalt).assignments, x.Good := by
  intro x hx
  simp only [Draft.assignments, List.mem_append, List.mem_map, Option.mem_toList,
    List.mem_ite_nil_right, List.mem_singleton] at hx
  rcases hx with ⟨path, hpath, rfl⟩ | ⟨text, -, rfl⟩ | ⟨count, hcount, rfl⟩ |
    ⟨policy, -, rfl⟩ | ⟨-, rfl⟩ | ⟨path, hpath, rfl⟩
  · exact h.program path hpath
  · trivial
  · obtain ⟨-, heq⟩ := Option.ite_none_right_eq_some.mp hcount
    rw [← Option.some.inj heq]
    exact h.processors
  · trivial
  · trivial
  · exact h.dumpState path hpath

theorem finish_draft (a : Arguments) (showCount showHalt : Bool) :
    (a.draft showCount showHalt).finish =
      if a.program.isSome && a.eval.isSome then .error .argumentConflict else .ok a := by
  have hcount : (if showCount || a.processors != 1 then some a.processors else none).getD 1 =
      a.processors := by
    split <;> simp_all
  have hpolicy : (if showHalt || a.halt != .firstFinished then some a.halt else none).getD
      .firstFinished = a.halt := by
    split <;> simp_all
  simp only [draft, Draft.finish, hcount, hpolicy]

end Arguments

/-- Arguments with a program or a text or neither, each written as one token, possibly but for a
    count and a policy at their defaults, are read back from these tokens in every order. With both
    a program and a text the tokens are refused in every order. -/
theorem arguments_parse_in_any_order {a : Arguments} (h : a.Writable) (showCount showHalt : Bool)
    {tokens : List String}
    (hperm : tokens.Perm ((a.draft showCount showHalt).assignments.map Assignment.token)) :
    (¬ (a.program.isSome ∧ a.eval.isSome) → Arguments.parse tokens = .ok a) ∧
      (a.program.isSome ∧ a.eval.isSome → Arguments.parse tokens = .error .argumentConflict) := by
  rw [Draft.parse_of_perm (h.good showCount showHalt) hperm, Arguments.finish_draft]
  simp only [Bool.and_eq_true]
  exact ⟨fun hnot => if_neg hnot, fun hboth => if_pos hboth⟩

/-- A text that looks like an option, the other tokens before it; and two programs at once. -/
theorem arguments_parse_in_any_order_backwards :
    let a : Arguments :=
      { eval := some "--halt=-[", processors := 1, halt := .allFinished, dumpState := some "-d" }
    a.Writable ∧
      Arguments.parse ["--dump-state=-d", "--halt=all-finished", "--processors=1",
        "--eval=--halt=-["] = .ok a ∧
      Arguments.parse ["--dump-state=-d", "--eval=--halt=-[", "p.bf", "--halt=all-finished"] =
        .error .argumentConflict := by
  intro a
  have hwritable : a.Writable := by
    refine ⟨?_, by decide, ?_⟩
    · rintro path ⟨⟩
    · rintro path ⟨⟩
      decide
  have hwritable' : ({ a with program := some "p.bf" } : Arguments).Writable := by
    refine ⟨?_, by decide, hwritable.dumpState⟩
    rintro path ⟨⟩
    decide
  refine ⟨hwritable, ?_, ?_⟩
  · exact (arguments_parse_in_any_order hwritable true false (by decide)).1 (by decide)
  · exact (arguments_parse_in_any_order hwritable' false false (by decide)).2 (by decide)

end TapeRing.CommandLine

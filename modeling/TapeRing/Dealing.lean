import TapeRing.Fault
import TapeRing.Program

/-! # Dealing a program to processors

A program is dealt like cards: instruction `k` goes to processor `k mod n`. So the part of
processor `i` holds the instructions `i`, `i + n`, `i + 2n`, … (`getElem?_everyNth`). -/

namespace TapeRing

/-- Every `n`-th element of a list, the first `skip` elements being passed over. -/
def everyNth {α : Type} (n : Nat) : (skip : Nat) → List α → List α
  | _, [] => []
  | 0, x :: xs => x :: everyNth n (n - 1) xs
  | skip + 1, _ :: xs => everyNth n skip xs

theorem getElem?_everyNth {α : Type} {n : Nat} (hn : 0 < n) (xs : List α) :
    ∀ skip k : Nat, (everyNth n skip xs)[k]? = xs[skip + k * n]? := by
  induction xs with
  | nil => intro skip k; simp [everyNth]
  | cons x xs ih =>
    intro skip k
    cases skip with
    | zero =>
      cases k with
      | zero => simp [everyNth]
      | succ k =>
        have hk : 0 + (k + 1) * n = (n - 1 + k * n) + 1 := by
          rw [Nat.succ_mul]; omega
        rw [hk, List.getElem?_cons_succ, everyNth, List.getElem?_cons_succ]
        exact ih (n - 1) k
    | succ skip =>
      have hk : skip + 1 + k * n = (skip + k * n) + 1 := by omega
      rw [hk, List.getElem?_cons_succ, everyNth]
      exact ih skip k

theorem length_everyNth_le {α : Type} (n : Nat) (xs : List α) :
    ∀ skip : Nat, (everyNth n skip xs).length ≤ xs.length := by
  induction xs with
  | nil => intro skip; simp [everyNth]
  | cons x xs ih =>
    intro skip
    cases skip with
    | zero => exact Nat.succ_le_succ (ih (n - 1))
    | succ skip => exact Nat.le_succ_of_le (ih skip)

namespace Program

/-- The part of a program that is dealt to one of `count` processors. -/
def part (p : Program) (count index : Nat) : Program :=
  ⟨everyNth count index p.ops⟩

theorem get?_part {count : Nat} (hpos : 0 < count) (p : Program) (index k : Nat) :
    (p.part count index).get? k = p.get? (index + k * count) :=
  getElem?_everyNth hpos p.ops index k

theorem length_part_le (p : Program) (count index : Nat) : (p.part count index).length ≤ p.length :=
  length_everyNth_le count p.ops index

/-- Deals a program to `count` processors, of which there has to be at least one. -/
def deal (p : Program) (count : Nat) : Except Fault (List Program) :=
  if count = 0 then .error .noProcessors
  else .ok ((List.range count).map (p.part count))

end Program

end TapeRing

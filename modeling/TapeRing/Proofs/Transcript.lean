import TapeRing.Channel.Basic

/-! # Repeated calls

A tick and a step are calls on a state and its channels. `transcript` makes a number of calls in
turn and keeps the result of each, going on after a fault from what the fault left behind. -/

namespace TapeRing

/-- What a number of calls leave behind: the result of each, the state, and the channels. -/
structure Transcript (ρ μ κ σ : Type) where
  results : List (Except Fault ρ)
  state : μ
  channels : Channels κ σ

variable {ρ μ ν κ σ : Type}

/-- Makes a number of calls, each from where the one before it left off. -/
def transcript (call : μ → Channels κ σ → Outcome ρ μ κ σ) :
    Nat → μ → Channels κ σ → Transcript ρ μ κ σ
  | 0, state, channels => ⟨[], state, channels⟩
  | count + 1, state, channels =>
      let first := call state channels
      let later := transcript call count first.state first.channels
      ⟨first.result :: later.results, later.state, later.channels⟩

/-- The last of a number of calls starts where the calls before it end. -/
theorem transcript_succ (call : μ → Channels κ σ → Outcome ρ μ κ σ) :
    ∀ (count : Nat) (state : μ) (channels : Channels κ σ),
      transcript call (count + 1) state channels =
        let before := transcript call count state channels
        let last := call before.state before.channels
        ⟨before.results ++ [last.result], last.state, last.channels⟩ := by
  intro count
  induction count with
  | zero => intro state channels; rfl
  | succ count ih =>
    intro state channels
    let first := call state channels
    let later := transcript call (count + 1) first.state first.channels
    have hlater : later = _ := ih first.state first.channels
    show (⟨first.result :: later.results, later.state, later.channels⟩ : Transcript ρ μ κ σ) = _
    rw [hlater]
    rfl

/-- What every call keeps holds after any number of calls. -/
theorem transcript_invariant {call : μ → Channels κ σ → Outcome ρ μ κ σ} {Holds : μ → Prop}
    (hcall : ∀ state channels, Holds state → Holds (call state channels).state) :
    ∀ (count : Nat) (state : μ) (channels : Channels κ σ),
      Holds state → Holds (transcript call count state channels).state := by
  intro count
  induction count with
  | zero => intro state channels h; exact h
  | succ count ih =>
    intro state channels h
    exact ih _ _ (hcall state channels h)

/-- Calls that agree on related states, and lead to related states, agree for ever. -/
theorem transcript_related {call : μ → Channels κ σ → Outcome ρ μ κ σ}
    {call' : ν → Channels κ σ → Outcome ρ ν κ σ} {Related : μ → ν → Prop}
    (hcall : ∀ state state' channels, Related state state' →
      (call state channels).result = (call' state' channels).result ∧
        (call state channels).channels = (call' state' channels).channels ∧
        Related (call state channels).state (call' state' channels).state) :
    ∀ (count : Nat) (state : μ) (state' : ν) (channels : Channels κ σ), Related state state' →
      (transcript call count state channels).results =
          (transcript call' count state' channels).results ∧
        (transcript call count state channels).channels =
          (transcript call' count state' channels).channels ∧
        Related (transcript call count state channels).state
          (transcript call' count state' channels).state := by
  intro count
  induction count with
  | zero => intro state state' channels h; exact ⟨rfl, rfl, h⟩
  | succ count ih =>
    intro state state' channels h
    obtain ⟨hresult, hchannels, hrelated⟩ := hcall state state' channels h
    obtain ⟨hresults, hrest⟩ := ih _ _ (call state channels).channels hrelated
    simp only [transcript, ← hchannels]
    exact ⟨by rw [hresult, hresults], hrest⟩

end TapeRing

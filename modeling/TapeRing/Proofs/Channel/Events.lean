import TapeRing.Channel.Source

/-! # Read events

What a read takes from the events of a reader: interrupts, and then one byte, one failure, or
nothing more at the end of the input (`get_cases`). -/

namespace TapeRing

namespace ReadEvent

/-- The byte that an attempt to read comes to, if it comes to one. -/
def byte? : ReadEvent → Option UInt8
  | .byte value => some value
  | .interrupt | .failure _ => none

/-- The text of the failure that an attempt to read comes to, if it comes to one. -/
def failure? : ReadEvent → Option String
  | .failure text => some text
  | .byte _ | .interrupt => none

/-- The bytes among a row of events, in order. -/
def bytes (events : List ReadEvent) : List UInt8 := events.filterMap byte?

/-- The texts of the failures among a row of events, in order. -/
def failures (events : List ReadEvent) : List String := events.filterMap failure?

@[simp] theorem bytes_append (events more : List ReadEvent) :
    bytes (events ++ more) = bytes events ++ bytes more := by
  simp [bytes]

@[simp] theorem failures_append (events more : List ReadEvent) :
    failures (events ++ more) = failures events ++ failures more := by
  simp [failures]

end ReadEvent

namespace ReaderSource

open ReadEvent

/-- The events that a read takes, by what it comes to. -/
inductive Takes : List ReadEvent → Except Fault UInt8 → Prop
  | byte {taken : List ReadEvent} {value : UInt8} : bytes taken = [value] → failures taken = [] →
      Takes taken (.ok value)
  | failure {taken : List ReadEvent} {text : String} : bytes taken = [] →
      failures taken = [text] → Takes taken (.error (.channel text))

/-- A read goes on after an interrupt. -/
theorem Takes.interrupt {taken : List ReadEvent} {answer : Except Fault UInt8}
    (h : Takes taken answer) : Takes (.interrupt :: taken) answer := by
  cases h with
  | byte hbytes hfailures => exact .byte hbytes hfailures
  | failure hbytes hfailures => exact .failure hbytes hfailures

/-- A read takes its events from the front, or it takes all of them and finds no byte and no
    failure. -/
theorem next_cases (events : List ReadEvent) :
    (∃ taken, events = taken ++ (next events).2 ∧ Takes taken (next events).1) ∨
      next events = (.error .inputExhausted, []) ∧ bytes events = [] ∧ failures events = [] := by
  induction events with
  | nil => exact Or.inr ⟨rfl, rfl, rfl⟩
  | cons event rest ih =>
    cases event with
    | byte value => exact Or.inl ⟨[.byte value], rfl, .byte rfl rfl⟩
    | failure text => exact Or.inl ⟨[.failure text], rfl, .failure rfl rfl⟩
    | interrupt =>
      rcases ih with ⟨taken, hevents, htakes⟩ | ⟨hnext, hbytes, hfailures⟩
      · exact Or.inl ⟨.interrupt :: taken, congrArg _ hevents, htakes.interrupt⟩
      · exact Or.inr ⟨hnext, hbytes, hfailures⟩

/-- A get takes events from the front, or it takes all of them and finds no byte and no failure. -/
theorem get_cases {s s' : ReaderSource} {answer : Except Fault UInt8}
    (h : ByteSource.get s = (answer, s')) :
    (∃ taken, s.events = taken ++ s'.events ∧ Takes taken answer) ∨
      answer = .error .inputExhausted ∧ s'.events = [] ∧ bytes s.events = [] ∧
        failures s.events = [] := by
  obtain ⟨rfl, rfl⟩ : (next s.events).1 = answer ∧ ⟨(next s.events).2⟩ = s' := Prod.mk.inj h
  rcases next_cases s.events with htaken | ⟨hend, hnothing⟩
  · exact Or.inl htaken
  · rw [hend]
    exact Or.inr ⟨rfl, rfl, hnothing⟩

end ReaderSource

end TapeRing

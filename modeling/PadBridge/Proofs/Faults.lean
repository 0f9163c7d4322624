/-!
Computations that can fail, with the faults apart that are let pass.  One computation is followed to
its result, or two of them side by side.
-/

namespace PadBridge

variable {ε α β γ δ : Type} {fault : ε → Prop}

/-- A computation fails in a way that is let pass, or its result has a property. -/
inductive FaultOr (fault : ε → Prop) (good : α → Prop) : Except ε α → Prop
  | fault {error : ε} : fault error → FaultOr fault good (.error error)
  | done {value : α} : good value → FaultOr fault good (.ok value)

/-- A computation fails in a way that is let pass, or another one goes with it: both fail alike, or
they have results that are related. -/
inductive Followed (fault : ε → Prop) (related : α → β → Prop) : Except ε α → Except ε β → Prop
  | fault {error : ε} (other : Except ε β) :
      fault error → Followed fault related (.error error) other
  | failed (error : ε) : Followed fault related (.error error) (.error error)
  | done {value : α} {other : β} :
      related value other → Followed fault related (.ok value) (.ok other)

variable {good : α → Prop} {fine : β → Prop} {related : α → β → Prop} {further : γ → δ → Prop}
  {first : Except ε α} {second : Except ε β}

theorem bind_eq_ok_iff {next : α → Except ε β} {value : β} :
    (first >>= next) = .ok value ↔ ∃ between, first = .ok between ∧ next between = .ok value := by
  cases first <;> simp [bind, Except.bind]

namespace FaultOr

theorem bind {next : α → Except ε β} (hfirst : FaultOr fault good first)
    (hnext : ∀ value, good value → FaultOr fault fine (next value)) :
    FaultOr fault fine (first >>= next) := by
  cases hfirst with
  | fault herror => exact .fault herror
  | done hvalue => exact hnext _ hvalue

/-- A computation that is followed alone until another one starts. -/
theorem followed {next : α → Except ε γ} {other : Except ε δ} (hfirst : FaultOr fault good first)
    (hnext : ∀ value, good value → Followed fault further (next value) other) :
    Followed fault further (first >>= next) other := by
  cases hfirst with
  | fault herror => exact .fault other herror
  | done hvalue => exact hnext _ hvalue

/-- A computation that is followed alone, beside one that does nothing. -/
theorem beside {other : β} (hfirst : FaultOr fault good first)
    (hrelated : ∀ value, good value → related value other) :
    Followed fault related first (.ok other) := by
  cases hfirst with
  | fault herror => exact .fault _ herror
  | done hvalue => exact .done (hrelated _ hvalue)

theorem mapM {step : α → Except ε β} {values : List α}
    (hstep : ∀ value ∈ values, FaultOr fault fine (step value)) :
    FaultOr fault (fun results => ∀ result ∈ results, fine result) (values.mapM step) := by
  induction values with
  | nil => exact .done fun _ hresult => by cases hresult
  | cons value values ih =>
      rw [List.mapM_cons]
      refine (hstep value List.mem_cons_self).bind fun result hresult => ?_
      refine (ih fun other hother => hstep other (List.mem_cons_of_mem value hother)).bind
        fun results hresults => .done fun other hother => ?_
      rcases List.mem_cons.mp hother with rfl | hother
      · exact hresult
      · exact hresults other hother

end FaultOr

namespace Followed

theorem bind {next : α → Except ε γ} {otherNext : β → Except ε δ}
    (hfirst : Followed fault related first second)
    (hnext : ∀ value other, related value other →
      Followed fault further (next value) (otherNext other)) :
    Followed fault further (first >>= next) (second >>= otherNext) := by
  cases hfirst with
  | fault other herror => exact .fault _ herror
  | failed error => exact .failed error
  | done hvalue => exact hnext _ _ hvalue

/-- The other one has only its result left. -/
theorem bind_beside {next : α → Except ε γ} {other : β} {second : Except ε δ}
    (hfirst : Followed fault related first (.ok other))
    (hnext : ∀ value, related value other → Followed fault further (next value) second) :
    Followed fault further (first >>= next) second := by
  cases hfirst with
  | fault _ herror => exact .fault _ herror
  | done hvalue => exact hnext _ hvalue

theorem mono {closer : α → β → Prop} (hfirst : Followed fault closer first second)
    (hrelated : ∀ value other, closer value other → related value other) :
    Followed fault related first second := by
  cases hfirst with
  | fault other herror => exact .fault _ herror
  | failed error => exact .failed error
  | done hvalue => exact .done (hrelated _ _ hvalue)

theorem same (computation : Except ε α) : Followed fault Eq computation computation := by
  cases computation with
  | error error => exact .failed error
  | ok value => exact .done rfl

end Followed

end PadBridge

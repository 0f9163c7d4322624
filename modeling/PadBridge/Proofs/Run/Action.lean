import PadBridge.Proofs.FileTree
import PadBridge.Proofs.Recode
import PadBridge.Run.Command

/-!
What the parts of a run do to the tree and to the output.  What is said beside the output is left
open: no part looks at it.
-/

namespace PadBridge.Run

/-- How an action ends that is carried out on a tree with some output already written: its result,
the tree and the output. -/
def Ends {α : Type} (action : Action α) (tree : FileTree) (output : String)
    (result : Except Abort α) (after : FileTree) (written : String) : Prop :=
  ∀ notices, ∃ later, action.run ⟨tree, output, notices⟩ = (result, ⟨after, written, later⟩)

section

variable {α β : Type} {tree between after : FileTree} {output said written : String}

theorem ends_pure (value : α) : Ends (pure value) tree output (.ok value) tree output :=
  fun notices => ⟨notices, rfl⟩

/-- The next action carries on where the first one ended, unless it stopped early. -/
theorem run_bind (first : Action α) (next : α → Action β) (state : State) :
    (first >>= next).run state =
      match first.run state with
      | (.ok value, state) => (next value).run state
      | (.error abort, state) => (.error abort, state) := by
  change (match first.run state with
    | (result, state) => ExceptT.bindCont next result state) = _
  rcases first.run state with ⟨result, after⟩
  cases result <;> rfl

theorem Ends.bind {first : Action α} {next : α → Action β} {value : α} {result : Except Abort β}
    (hfirst : Ends first tree output (.ok value) between said)
    (hnext : Ends (next value) between said result after written) :
    Ends (first >>= next) tree output result after written := by
  intro notices
  obtain ⟨middle, hmiddle⟩ := hfirst notices
  obtain ⟨later, hlater⟩ := hnext middle
  refine ⟨later, ?_⟩
  rw [run_bind, hmiddle]
  exact hlater

theorem Ends.bind_error {first : Action α} {next : α → Action β} {abort : Abort}
    (hfirst : Ends first tree output (.error abort) after written) :
    Ends (first >>= next) tree output (.error abort) after written := by
  intro notices
  obtain ⟨later, hlater⟩ := hfirst notices
  refine ⟨later, ?_⟩
  rw [run_bind, hlater]

/-- An action that looks at how far the run has come. -/
theorem ends_get_bind {next : State → Action β} {result : Except Abort β}
    (hnext : ∀ notices, Ends (next ⟨tree, output, notices⟩) tree output result after written) :
    Ends (get >>= next) tree output result after written :=
  fun notices => hnext notices notices

theorem ends_print (text : String) :
    Ends (print text) tree output (.ok ()) tree (output ++ text) :=
  fun notices => ⟨notices, rfl⟩

theorem ends_note (notice : Notice) : Ends (note notice) tree output (.ok ()) tree output :=
  fun notices => ⟨notices ++ [notice], rfl⟩

theorem ends_noteAll (more : List Notice) : Ends (noteAll more) tree output (.ok ()) tree output :=
  fun notices => ⟨notices ++ more, rfl⟩

theorem ends_log (event : Log.Event) : Ends (log event) tree output (.ok ()) tree output :=
  ends_note (.event event)

theorem ends_setTree (after : FileTree) :
    Ends (modify fun state : State => { state with tree := after } : Action Unit) tree output
      (.ok ()) after output :=
  fun notices => ⟨notices, rfl⟩

theorem ends_fail (failure : Failure) :
    Ends (fail failure : Action α) tree output (.error (.failed failure)) tree output :=
  fun notices => ⟨notices, rfl⟩

theorem ends_crash : Ends (throw .crashed : Action α) tree output (.error .crashed) tree output :=
  fun notices => ⟨notices, rfl⟩

/-- The handler carries on where the action stopped. -/
theorem run_tryCatch (action : Action α) (handler : Abort → Action α) (state : State) :
    (tryCatch action handler).run state =
      match action.run state with
      | (.ok value, state) => (.ok value, state)
      | (.error abort, state) => (handler abort).run state := by
  rw [ExceptT.run_tryCatch]
  have hbind : ∀ (next : Except Abort α → StateM State (Except Abort α)),
      (action.run >>= next) state = next (action.run state).1 (action.run state).2 :=
    fun _ => rfl
  rw [hbind]
  rcases action.run state with ⟨result, after⟩
  cases result <;> rfl

theorem Ends.tryCatch_ok {action : Action α} {handler : Abort → Action α} {value : α}
    (haction : Ends action tree output (.ok value) after written) :
    Ends (tryCatch action handler) tree output (.ok value) after written := by
  intro notices
  obtain ⟨later, hlater⟩ := haction notices
  refine ⟨later, ?_⟩
  rw [run_tryCatch, hlater]

theorem Ends.tryCatch_error {action : Action α} {handler : Abort → Action α} {abort : Abort}
    {result : Except Abort α} (haction : Ends action tree output (.error abort) between said)
    (hhandler : Ends (handler abort) between said result after written) :
    Ends (tryCatch action handler) tree output result after written := by
  intro notices
  obtain ⟨middle, hmiddle⟩ := haction notices
  obtain ⟨later, hlater⟩ := hhandler middle
  refine ⟨later, ?_⟩
  rw [run_tryCatch, hmiddle]
  exact hlater

/-- An action that is carried out on a tree with some output already written ends in a way that
meets a condition. -/
def EndsWith (action : Action α) (tree : FileTree) (output : String)
    (condition : Except Abort α → FileTree → String → Prop) : Prop :=
  ∃ result after written, Ends action tree output result after written
    ∧ condition result after written

variable {condition : Except Abort β → FileTree → String → Prop}

theorem Ends.endsWith {action : Action β} {result : Except Abort β}
    (haction : Ends action tree output result after written)
    (hcondition : condition result after written) : EndsWith action tree output condition :=
  ⟨result, after, written, haction, hcondition⟩

theorem Ends.bind_endsWith {first : Action α} {next : α → Action β} {value : α}
    (hfirst : Ends first tree output (.ok value) between said)
    (hnext : EndsWith (next value) between said condition) :
    EndsWith (first >>= next) tree output condition := by
  obtain ⟨result, after, written, hends, hcondition⟩ := hnext
  exact (hfirst.bind hends).endsWith hcondition

/-- What holds where the first action stops is carried on, or it holds for all. -/
theorem EndsWith.bind {first : Action α} {next : α → Action β}
    {middle : Except Abort α → FileTree → String → Prop}
    (hfirst : EndsWith first tree output middle)
    (hnext : ∀ value between said, middle (.ok value) between said →
      EndsWith (next value) between said condition)
    (hstop : ∀ abort after written, middle (.error abort) after written →
      condition (.error abort) after written) :
    EndsWith (first >>= next) tree output condition := by
  obtain ⟨result, between, said, hends, hmiddle⟩ := hfirst
  cases result with
  | error abort => exact hends.bind_error.endsWith (hstop abort between said hmiddle)
  | ok value => exact hends.bind_endsWith (hnext value between said hmiddle)

end

end PadBridge.Run

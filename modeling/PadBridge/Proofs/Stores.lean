import PadBridge.Document

/-!
A mapping in two stores.  Only the targets that were assigned are kept, in no order; a button that
was never assigned has its factory target.  A mapping is what is seen of its stores, and nothing
tells a button that was assigned its factory target from one that was not assigned at all.
-/

namespace PadBridge

structure Stores where
  assigned : GameCubeButton → Option Target
  extra : Ledger

namespace Stores

def new : Stores where
  assigned _ := none
  extra := .empty

def get (stores : Stores) (source : GameCubeButton) : Target :=
  (stores.assigned source).getD (.button source.factory)

def set (stores : Stores) (source : GameCubeButton) (target : Target) : Stores :=
  { stores with
    assigned := fun button => if button = source then some target else stores.assigned button }

def setExtra (stores : Stores) (key value : String) : Stores :=
  { stores with extra := stores.extra.insert key value }

def reset (stores : Stores) : Stores :=
  { stores with
    assigned := fun _ => none
    extra := stores.extra.clear }

def unassigned : Stores :=
  GameCubeButton.all.foldl (fun stores source => stores.set source .unassigned) new

def read (stores : Stores) (key value : String) : Stores :=
  match GameCubeButton.ofName? key with
  | some button => stores.set button (.ofName value)
  | none => stores.setExtra key value

def ofDocument (document : Document) : Stores :=
  document.entries.foldl (fun stores entry => stores.read entry.1 entry.2) new

def seen (stores : Stores) : Mapping where
  get := stores.get
  extra := stores.extra

@[simp] theorem seen_new : new.seen = .factory :=
  rfl

@[simp] theorem seen_set (stores : Stores) (source : GameCubeButton) (target : Target) :
    (stores.set source target).seen = stores.seen.set source target := by
  simp only [seen, Mapping.set, Mapping.mk.injEq]
  refine ⟨funext fun button => ?_, rfl⟩
  rw [get, set]
  dsimp only
  split <;> rfl

@[simp] theorem seen_setExtra (stores : Stores) (key value : String) :
    (stores.setExtra key value).seen = stores.seen.setExtra key value :=
  rfl

@[simp] theorem seen_reset (stores : Stores) : stores.reset.seen = stores.seen.reset :=
  rfl

theorem seen_foldl {α : Type} {step : Stores → α → Stores} {see : Mapping → α → Mapping}
    (hstep : ∀ stores value, (step stores value).seen = see stores.seen value) (values : List α)
    (stores : Stores) : (values.foldl step stores).seen = values.foldl see stores.seen := by
  induction values generalizing stores with
  | nil => rfl
  | cons value rest ih => rw [List.foldl_cons, List.foldl_cons, ih, hstep]

@[simp] theorem seen_unassigned : unassigned.seen = .unassigned :=
  seen_foldl (fun stores source => stores.seen_set source .unassigned) _ _

theorem seen_read (stores : Stores) (key value : String) :
    (stores.read key value).seen = stores.seen.read key value := by
  rw [read, Mapping.read]
  cases GameCubeButton.ofName? key with
  | some button => exact stores.seen_set button (.ofName value)
  | none => exact stores.seen_setExtra key value

@[simp] theorem seen_ofDocument (document : Document) :
    (ofDocument document).seen = .ofDocument document :=
  seen_foldl (fun stores entry => stores.seen_read entry.1 entry.2) _ _

end Stores
end PadBridge

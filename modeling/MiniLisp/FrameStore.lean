import MiniLisp.Scope

/-!
The frame store: scopes as they lie in memory, where they share their frames.

A frame holds one binding and a link to the frame that was newest in the scope it was made for. It
never changes, and no frame links to a later one. A scope in the store is a label with its newest
frame. What it stands for is the scope with the frames along the links (`StoredScope.toScope`):
binding adds a frame to the store and leaves every scope that was there as it is, and two scopes
with the same newest frame are equal without a look at what they bind.
-/

namespace MiniLisp

/-- A number of frames, each with a link to an older one, if it has one to link to. -/
inductive FrameStore : Nat → Type where
  | empty : FrameStore 0
  | push {n : Nat} (older : FrameStore n) (name : String) (value : Value)
      (outer : Option (Fin n)) : FrameStore (n + 1)

/-- What a frame and those along its links bind, newest first. -/
def FrameStore.chain : {n : Nat} → FrameStore n → Option (Fin n) → List (String × Value)
  | _, .empty, _ => []
  | _, .push .., none => []
  | n + 1, .push older name value outer, some k =>
    if h : k.val < n then older.chain (some ⟨k.val, h⟩) else (name, value) :: older.chain outer

@[simp]
theorem FrameStore.chain_none {n : Nat} (store : FrameStore n) : store.chain none = [] := by
  cases store <;> rfl

structure StoredScope (n : Nat) where
  label : Name
  /-- The newest frame. -/
  head : Option (Fin n)

namespace StoredScope

variable {n : Nat}

def toScope (store : FrameStore n) (s : StoredScope n) : Scope := ⟨s.label, store.chain s.head⟩

/-- A scope, once another frame is in the store. -/
def kept (s : StoredScope n) : StoredScope (n + 1) := ⟨s.label, s.head.map Fin.castSucc⟩

/-- The scope with one more frame, which is put in the store. -/
def bind (store : FrameStore n) (s : StoredScope n) (name : String) (value : Value) :
    FrameStore (n + 1) × StoredScope (n + 1) :=
  (store.push name value s.head, ⟨s.label, some (Fin.last n)⟩)

def relabel (s : StoredScope n) (label : Name) : StoredScope n := ⟨label, s.head⟩

/-- Whether two scopes count as equal. Their bindings are not compared if they share all frames. -/
def agrees (store : FrameStore n) (s t : StoredScope n) : Bool :=
  s.label == t.label &&
    (s.head == t.head || (s.toScope store).bindingsAgree (t.toScope store))

theorem toScope_bind (store : FrameStore n) (s : StoredScope n) (name : String) (value : Value) :
    (s.bind store name value).2.toScope (s.bind store name value).1 =
      (s.toScope store).bind name value := by
  simp [toScope, bind, FrameStore.chain, Scope.bind]

-- Whatever is bound, the scopes in the store stay what they are.
theorem toScope_kept (store : FrameStore n) (s : StoredScope n) (name : String) (value : Value)
    (outer : Option (Fin n)) :
    s.kept.toScope (store.push name value outer) = s.toScope store := by
  rcases s with ⟨label, _ | k⟩ <;> simp [toScope, kept, FrameStore.chain]

theorem toScope_relabel (store : FrameStore n) (s : StoredScope n) (label : Name) :
    (s.relabel label).toScope store = (s.toScope store).relabel label := rfl

/-- Every scope is in some store. -/
theorem exists_toScope_eq (s : Scope) :
    ∃ (n : Nat) (store : FrameStore n) (t : StoredScope n), t.toScope store = s := by
  rcases s with ⟨label, frames⟩
  induction frames with
  | nil => exact ⟨0, .empty, ⟨label, none⟩, rfl⟩
  | cons frame frames ih =>
    obtain ⟨n, store, t, ht⟩ := ih
    refine ⟨n + 1, _, _, (t.toScope_bind store frame.1 frame.2).trans ?_⟩
    rw [ht]
    rfl

end StoredScope

end MiniLisp

import MiniLisp.FrameStore
import MiniLisp.Proofs.Scope.History
import MiniLisp.Proofs.Value.Agreement
import Mathlib.Data.List.Perm.Subperm

/-!
# Agreement of scopes

Scopes are compared by their bindings: there are as many in one as in the other, and each name of
the one is bound in the other to a value that agrees. No name stands twice among the bindings of a
scope, so by counting the names are the same (`Scope.agrees_iff`). What a scope is compared by is
therefore what looking up finds. The order of binds and shadowed frames make no difference, nor does
it that scopes which share their frames are equal without a look at their bindings
(`Scope.agreement_is_extensional`).
-/

namespace MiniLisp.Scope

variable {s t : Scope}

/-! ## Names -/

theorem nodup_visible (frames : List (String × Value)) :
    ((visible frames).map Prod.fst).Nodup := by
  induction frames with
  | nil => exact List.nodup_nil
  | cons frame frames ih =>
    rw [visible_cons frame.1 frame.2, List.map_cons]
    refine List.nodup_cons.2 ⟨?_, ih.sublist (List.filter_sublist.map Prod.fst)⟩
    simp only [List.mem_map, List.mem_filter, decide_eq_true_eq, not_exists, not_and]
    exact fun pair hpair heq => hpair.2 heq

/-- The names that a scope binds, each once. -/
def names (s : Scope) : List String := s.bindings.map Prod.fst

theorem nodup_names (s : Scope) : s.names.Nodup := by
  rw [names, bindings, List.map_reverse]
  exact List.nodup_reverse.2 (nodup_visible s.frames)

theorem length_names (s : Scope) : s.names.length = s.size := List.length_map _

theorem mem_names_iff {name : String} : name ∈ s.names ↔ ∃ v, s.get? name = some v := by
  simp only [names, List.mem_map, Prod.exists, mem_bindings_iff, exists_and_right,
    exists_eq_right]

theorem visible_eq_self {frames : List (String × Value)} (h : (frames.map Prod.fst).Nodup) :
    visible frames = frames := by
  induction frames with
  | nil => rfl
  | cons frame frames ih =>
    obtain ⟨hfresh, hrest⟩ := List.nodup_cons.1 h
    rw [visible_cons, ih hrest, List.filter_eq_self.2]
    exact fun pair hpair => decide_eq_true fun heq => hfresh (heq ▸ List.mem_map_of_mem hpair)

-- What a scope binds it also binds if it has no frames but its bindings, in any order.
theorem get?_of_perm_bindings {frames : List (String × Value)} (h : frames.Perm s.bindings)
    (name : String) : { s with frames := frames }.get? name = s.get? name := by
  have hnodup : (frames.map Prod.fst).Nodup := (h.map Prod.fst).nodup_iff.2 s.nodup_names
  ext v
  rw [← mem_bindings_iff, ← mem_bindings_iff, ← h.mem_iff, bindings, List.mem_reverse,
    visible_eq_self hnodup]

-- The bindings of a scope are a dictionary for looking up in it.
theorem lookup_bindings (s : Scope) (name : String) : s.bindings.lookup name = s.get? name :=
  get?_of_perm_bindings (.refl s.bindings) name

/-! ## Agreement by looking up -/

/-- In both scopes a name is bound to values that agree, or in neither it is bound. -/
def LooksUpAlike (s t : Scope) (name : String) : Prop :=
  (s.get? name = none ∧ t.get? name = none) ∨
    ∃ u v, s.get? name = some u ∧ t.get? name = some v ∧ u.agrees v

theorem looksUpAlike_iff {name : String} : LooksUpAlike s t name ↔
    (s.get? name).map Value.withoutBooleans = (t.get? name).map Value.withoutBooleans := by
  unfold LooksUpAlike
  cases s.get? name <;> cases t.get? name <;> simp [Value.agrees_iff]

theorem mem_names_iff_of_looksUpAlike (h : ∀ name, LooksUpAlike s t name) (name : String) :
    name ∈ s.names ↔ name ∈ t.names := by
  rw [mem_names_iff, mem_names_iff]
  obtain ⟨hs, ht⟩ | ⟨u, v, hs, ht, -⟩ := h name
  · simp [hs, ht]
  · simp [hs, ht]

theorem bindingsAgree_iff : s.bindingsAgree t ↔ ∀ name, LooksUpAlike s t name := by
  simp only [bindingsAgree, lookup_bindings]
  rw [Bool.and_eq_true, beq_iff_eq, List.all_eq_true, ← length_names,
    ← length_names]
  constructor
  · rintro ⟨hsize, hall⟩ name
    have hbound : ∀ name u, s.get? name = some u → ∃ v, t.get? name = some v ∧ u.agrees v :=
      fun name u hu => (Option.any_eq_true _ _).1 (hall (name, u) (mem_bindings_iff.2 hu))
    have hsubset : s.names ⊆ t.names := by
      intro name hname
      obtain ⟨u, hu⟩ := mem_names_iff.1 hname
      obtain ⟨v, hv, -⟩ := hbound name u hu
      exact mem_names_iff.2 ⟨v, hv⟩
    -- There are no more names in `t` than those of `s`, which it all has.
    have hperm : s.names.Perm t.names :=
      (s.nodup_names.subperm hsubset).perm_of_length_le hsize.ge
    cases hu : s.get? name with
    | some u =>
      obtain ⟨v, hv, huv⟩ := hbound name u hu
      exact .inr ⟨u, v, hu, hv, huv⟩
    | none =>
      refine .inl ⟨hu, Option.eq_none_iff_forall_ne_some.2 fun v hv => ?_⟩
      obtain ⟨u, hsome⟩ := mem_names_iff.1 (hperm.mem_iff.2 (mem_names_iff.2 ⟨v, hv⟩))
      rw [hu] at hsome
      cases hsome
  · intro h
    have hperm : s.names.Perm t.names :=
      (List.perm_ext_iff_of_nodup s.nodup_names t.nodup_names).2 (mem_names_iff_of_looksUpAlike h)
    refine ⟨hperm.length_eq, fun ⟨name, u⟩ hpair => (Option.any_eq_true _ _).2 ?_⟩
    have hu : s.get? name = some u := mem_bindings_iff.1 hpair
    obtain ⟨hnone, -⟩ | ⟨u', v, hs, ht, huv⟩ := h name
    · rw [hu] at hnone
      cases hnone
    · rw [hu] at hs
      cases hs
      exact ⟨v, ht, huv⟩

theorem agrees_iff : s.agrees t ↔ s.label = t.label ∧ ∀ name, LooksUpAlike s t name := by
  rw [agrees, Bool.and_eq_true, beq_iff_eq, bindingsAgree_iff]

theorem equivalence_agrees : Equivalence fun s t : Scope => s.agrees t where
  refl s := agrees_iff.2 ⟨rfl, fun _ => looksUpAlike_iff.2 rfl⟩
  symm h := by
    obtain ⟨hlabel, hall⟩ := agrees_iff.1 h
    exact agrees_iff.2
      ⟨hlabel.symm, fun name => looksUpAlike_iff.2 (looksUpAlike_iff.1 (hall name)).symm⟩
  trans h h' := by
    obtain ⟨hlabel, hall⟩ := agrees_iff.1 h
    obtain ⟨hlabel', hall'⟩ := agrees_iff.1 h'
    exact agrees_iff.2 ⟨hlabel.trans hlabel', fun name =>
      looksUpAlike_iff.2 ((looksUpAlike_iff.1 (hall name)).trans (looksUpAlike_iff.1 (hall' name)))⟩

/-! ## Binding -/

theorem LooksUpAlike.bind {name' : String} (h : LooksUpAlike s t name') {u v : Value}
    (huv : u.agrees v) (name : String) :
    LooksUpAlike (s.bind name u) (t.bind name v) name' := by
  unfold LooksUpAlike
  rw [get?_bind, get?_bind]
  by_cases hname : name' = name
  · rw [if_pos hname, if_pos hname]
    exact .inr ⟨u, v, rfl, rfl, huv⟩
  · rw [if_neg hname, if_neg hname]
    exact h

theorem agrees_bind (h : s.agrees t) {u v : Value} (huv : u.agrees v) (name : String) :
    (s.bind name u).agrees (t.bind name v) := by
  obtain ⟨hlabel, hall⟩ := agrees_iff.1 h
  exact agrees_iff.2 ⟨hlabel, fun name' => (hall name').bind huv name⟩

/-! ## Frames in any order -/

theorem agrees_of_perm_bindings {frames : List (String × Value)} (h : frames.Perm s.bindings) :
    s.agrees { s with frames := frames } :=
  agrees_iff.2 ⟨rfl, fun name => looksUpAlike_iff.2 (by rw [get?_of_perm_bindings h])⟩

/-! ## Shared frames -/

/-- Scopes that share their frames have the same bindings, so not to compare these makes no
difference. -/
theorem agrees_toScope {n : Nat} (store : FrameStore n) (s t : StoredScope n) :
    s.agrees store t = (s.toScope store).agrees (t.toScope store) := by
  rw [StoredScope.agrees, agrees]
  by_cases hhead : s.head = t.head
  · have hsame : (s.toScope store).bindingsAgree (t.toScope store) :=
      bindingsAgree_iff.2 fun name => looksUpAlike_iff.2 (by
        rw [get?, get?, StoredScope.toScope, StoredScope.toScope, hhead])
    rw [hsame, Bool.or_true]
    rfl
  · rw [beq_eq_false_iff_ne.2 hhead, Bool.false_or]
    rfl

/-- Agreement tells nothing apart but what values and scopes hold. Values agree if they are the
same with every boolean replaced by 1 or 0, and so no symbol agrees with a text. Scopes agree if
they have the same label and looking up a name finds in both of them values that agree, or in
neither a value. Thus it is no more than a shortcut not to compare the bindings of scopes that share
their frames in a store, and a scope agrees with one that has its bindings for frames, in any order.
On values and on scopes agreement is an equivalence, and binding a name to values that agree keeps
it. -/
theorem agreement_is_extensional :
    (∀ u v : Value, u.agrees v ↔ u.withoutBooleans = v.withoutBooleans) ∧
    (Equivalence fun u v : Value => u.agrees v) ∧
    (∀ (name : Name) (s : String), (Value.symbol name).agrees (.text s) = false ∧
      (Value.text s).agrees (.symbol name) = false) ∧
    (∀ s t : Scope, s.agrees t ↔ s.label = t.label ∧ ∀ name, LooksUpAlike s t name) ∧
    (∀ (n : Nat) (store : FrameStore n) (s t : StoredScope n),
      s.agrees store t = (s.toScope store).agrees (t.toScope store)) ∧
    (∀ (s : Scope) (frames : List (String × Value)), frames.Perm s.bindings →
      s.agrees { s with frames := frames }) ∧
    (Equivalence fun s t : Scope => s.agrees t) ∧
    ∀ (s t : Scope) (u v : Value) (name : String), s.agrees t → u.agrees v →
      (s.bind name u).agrees (t.bind name v) := by
  refine ⟨Value.agrees_iff, Value.equivalence_agrees, fun name s => ⟨rfl, rfl⟩,
    fun s t => agrees_iff, fun n store => agrees_toScope store,
    fun s frames => agrees_of_perm_bindings, equivalence_agrees,
    fun s t u v name h huv => agrees_bind h huv name⟩

/-- The second scope binds the names in another order, one of them twice, and has numbers where the
first has booleans. -/
theorem agreement_is_extensional_reordered :
    ∃ (s t : Scope) (frames : List (String × Value)),
      s.frames = [("y", .sequence [.boolean true]), ("x", .number 0)] ∧
      t.frames = [("x", .boolean false), ("y", .sequence [.number 1]), ("x", .text "old")] ∧
      s.agrees t ∧
      (s.bind "z" (.quoted (.number 1))).agrees (t.bind "z" (.quoted (.boolean true))) ∧
      frames = [("x", .boolean false), ("y", .sequence [.number 1])] ∧ frames.Perm t.bindings ∧
      t.agrees { t with frames := frames } ∧
      ∃ (n : Nat) (store : FrameStore n) (u v : StoredScope n), u.head = v.head ∧
        u.toScope store = s ∧ (v.relabel s.label).toScope store = s ∧
        u.agrees store (v.relabel s.label) = s.agrees s := by
  let s : Scope := (empty.bind "x" (.number 0)).bind "y" (.sequence [.boolean true])
  let t : Scope :=
    ((empty.bind "x" (.text "old")).bind "y" (.sequence [.number 1])).bind "x" (.boolean false)
  let frames : List (String × Value) := [("x", .boolean false), ("y", .sequence [.number 1])]
  have hst : s.agrees t := by decide
  have hz : (Value.quoted (.number 1)).agrees (.quoted (.boolean true)) := by decide
  have hperm : frames.Perm t.bindings := .swap _ _ _
  -- One scope is another one under a new label, so they share their frames.
  let store : FrameStore 2 := (FrameStore.empty.push "x" (.number 0) none).push "y"
    (.sequence [.boolean true]) (some 0)
  let v : StoredScope 2 := ⟨anonymousLabel, some 1⟩
  obtain ⟨-, -, -, -, hshared, hframes, -, hbind⟩ := agreement_is_extensional
  exact ⟨s, t, frames, rfl, rfl, hst, hbind s t _ _ "z" hst hz, rfl, hperm, hframes t frames hperm,
    2, store, v.relabel s.label, v, rfl, rfl, rfl, hshared 2 store _ _⟩

end MiniLisp.Scope

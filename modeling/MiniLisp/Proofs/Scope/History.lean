import MiniLisp.Scope
import Mathlib.Data.Finset.Card
import Mathlib.Data.List.Induction
import Mathlib.Data.List.Nodup

/-!
# Scopes as histories of binds

What the bindings of a scope are to be is said by the history of its binds alone: each name that was
bound stands among them once, with the value that it was last bound to, in the order of these last
binds (`SumsUp`). Each bind keeps this (`SumsUp.concat`), so it holds of every scope that is built
up from an empty one, and determines the bindings (`bindings_sum_up_history`).
-/

namespace MiniLisp.Scope

/-! ## Histories -/

/-- What a scope is built up by. -/
inductive Action where
  | bind (name : String) (value : Value)
  | relabel (label : Name)

def Action.pair? : Action → Option (String × Value)
  | .bind name value => some (name, value)
  | .relabel _ => none

def perform (s : Scope) : Action → Scope
  | .bind name value => s.bind name value
  | .relabel label => s.relabel label

def performAll (s : Scope) (actions : List Action) : Scope := actions.foldl perform s

/-- The binds among some actions, first to last. -/
def binds (actions : List Action) : List (String × Value) := actions.filterMap Action.pair?

/-- The bind at the place `i` of a history is the last one of `name`, and binds it to `value`. -/
structure LastBound (history : List (String × Value)) (i : Nat) (name : String) (value : Value) :
    Prop where
  bound : history[i]? = some (name, value)
  last {j : Nat} {other : Value} : history[j]? = some (name, other) → j ≤ i

/-- Each name that was bound stands once among the pairs, with the value of its last bind, and the
names stand in the order of their last binds. -/
structure SumsUp (pairs history : List (String × Value)) : Prop where
  nodup : (pairs.map Prod.fst).Nodup
  mem_iff {name : String} {value : Value} :
    (name, value) ∈ pairs ↔ ∃ i, LastBound history i name value
  ordered : pairs.Pairwise fun p q =>
    ∀ i j, LastBound history i p.1 p.2 → LastBound history j q.1 q.2 → i < j

section

variable {history pairs others : List (String × Value)} {name name' : String}
  {value value' : Value} {i j : Nat}

theorem LastBound.lt_length (h : LastBound history i name value) : i < history.length := by
  obtain ⟨hi, -⟩ := List.getElem?_eq_some_iff.1 h.bound
  exact hi

theorem not_lastBound_nil : ¬ LastBound [] i name value := fun h => Nat.not_lt_zero i h.lt_length

-- One more bind is the last one of its name, and leaves alone what other names were bound to.
theorem lastBound_concat :
    LastBound (history ++ [(name', value')]) i name value ↔
      (name = name' ∧ i = history.length ∧ value = value') ∨
        (name ≠ name' ∧ LastBound history i name value) := by
  have hnew : (history ++ [(name', value')])[history.length]? = some (name', value') :=
    List.getElem?_concat_length
  have hold {k : Nat} (hk : k < history.length) :
      (history ++ [(name', value')])[k]? = history[k]? := List.getElem?_append_left hk
  constructor
  · intro h
    have hi : i < history.length + 1 := by simpa using h.lt_length
    by_cases hname : name = name'
    · subst hname
      have heq : i = history.length := Nat.le_antisymm (Nat.le_of_lt_succ hi) (h.last hnew)
      have hbound := h.bound
      rw [heq, hnew] at hbound
      cases hbound
      exact .inl ⟨rfl, heq, rfl⟩
    · have hne : i ≠ history.length := by
        rintro rfl
        have hbound := h.bound
        rw [hnew] at hbound
        cases hbound
        exact hname rfl
      refine .inr ⟨hname, ?_, fun {j other} hj => ?_⟩
      · rw [← hold (by omega)]
        exact h.bound
      · obtain ⟨hlt, -⟩ := List.getElem?_eq_some_iff.1 hj
        rw [← hold hlt] at hj
        exact h.last hj
  · rintro (⟨rfl, rfl, rfl⟩ | ⟨hname, h⟩)
    · refine ⟨hnew, fun {j other} hj => ?_⟩
      obtain ⟨hlt, -⟩ := List.getElem?_eq_some_iff.1 hj
      rw [List.length_append] at hlt
      exact Nat.le_of_lt_succ hlt
    · refine ⟨(hold h.lt_length).trans h.bound, fun {j other} hj => ?_⟩
      by_cases hlt : j < history.length
      · rw [hold hlt] at hj
        exact h.last hj
      · obtain ⟨hj', hother⟩ := List.getElem?_eq_some_iff.1 hj
        rw [List.length_append, List.length_singleton] at hj'
        obtain rfl : j = history.length := by omega
        rw [hnew] at hj
        cases hj
        exact absurd rfl hname

theorem exists_lastBound_iff :
    (∃ value i, LastBound history i name value) ↔ name ∈ history.map Prod.fst := by
  induction history using List.reverseRecOn with
  | nil => simp only [not_lastBound_nil, exists_false, List.map_nil, List.not_mem_nil]
  | append_singleton history pair ih =>
    rw [List.map_append, List.mem_append, List.map_singleton, List.mem_singleton, ← ih]
    constructor
    · rintro ⟨v, i, h⟩
      obtain ⟨rfl, -, -⟩ | ⟨-, h⟩ := lastBound_concat.1 h
      · exact .inr rfl
      · exact .inl ⟨v, i, h⟩
    · intro h
      by_cases hname : name = pair.1
      · exact ⟨pair.2, history.length, lastBound_concat.2 (.inl ⟨hname, rfl, rfl⟩)⟩
      · obtain ⟨v, i, hlast⟩ := h.resolve_right hname
        exact ⟨v, i, lastBound_concat.2 (.inr ⟨hname, hlast⟩)⟩

/-! ## Summing up -/

namespace SumsUp

theorem nil : SumsUp [] [] where
  nodup := List.nodup_nil
  mem_iff := iff_of_false List.not_mem_nil fun ⟨_, h⟩ => not_lastBound_nil h
  ordered := .nil

/-- A bind moves its name to the end. -/
theorem concat (h : SumsUp pairs history) (name : String) (value : Value) :
    SumsUp (pairs.filter (·.1 ≠ name) ++ [(name, value)]) (history ++ [(name, value)]) where
  nodup := by
    have hothers : ((pairs.filter (·.1 ≠ name)).map Prod.fst).Nodup :=
      h.nodup.sublist (List.filter_sublist.map Prod.fst)
    have hfresh : name ∉ (pairs.filter (·.1 ≠ name)).map Prod.fst := by
      simp only [List.mem_map, List.mem_filter, decide_eq_true_eq, not_exists, not_and]
      exact fun pair hpair heq => hpair.2 heq
    rw [List.map_append, List.map_singleton, ← List.concat_eq_append]
    exact hothers.concat hfresh
  mem_iff {x v} := by
    simp only [List.mem_append, List.mem_filter, decide_eq_true_eq, List.mem_singleton,
      Prod.mk.injEq, lastBound_concat, h.mem_iff]
    constructor
    · rintro (⟨⟨i, hi⟩, hne⟩ | ⟨rfl, rfl⟩)
      · exact ⟨i, .inr ⟨hne, hi⟩⟩
      · exact ⟨history.length, .inl ⟨rfl, rfl, rfl⟩⟩
    · rintro ⟨i, ⟨rfl, -, rfl⟩ | ⟨hne, hi⟩⟩
      · exact .inr ⟨rfl, rfl⟩
      · exact .inl ⟨⟨i, hi⟩, hne⟩
  ordered := by
    have hother {x : String} {v : Value} {i : Nat} (hx : x ≠ name)
        (hi : LastBound (history ++ [(name, value)]) i x v) : LastBound history i x v := by
      obtain ⟨rfl, -, -⟩ | ⟨-, hlast⟩ := lastBound_concat.1 hi
      · exact absurd rfl hx
      · exact hlast
    have hne {pair : String × Value} (hpair : pair ∈ pairs.filter (·.1 ≠ name)) : pair.1 ≠ name :=
      of_decide_eq_true (List.mem_filter.1 hpair).2
    refine List.pairwise_append.2 ⟨?_, List.pairwise_singleton _ _, ?_⟩
    · refine (h.ordered.filter _).imp_of_mem fun hp hq hpq i j hi hj => ?_
      exact hpq i j (hother (hne hp) hi) (hother (hne hq) hj)
    · intro p hp q hq i j hi hj
      obtain rfl := List.mem_singleton.1 hq
      obtain ⟨-, rfl, -⟩ | ⟨hself, -⟩ := lastBound_concat.1 hj
      · exact (hother (hne hp) hi).lt_length
      · exact absurd rfl hself

theorem unique (h : SumsUp pairs history) (h' : SumsUp others history) : pairs = others := by
  have hperm : pairs.Perm others :=
    (List.perm_ext_iff_of_nodup (.of_map _ h.nodup) (.of_map _ h'.nodup)).2
      fun _ => h.mem_iff.trans h'.mem_iff.symm
  refine hperm.eq_of_pairwise (fun p q hp hq hpq hqp => ?_) h.ordered h'.ordered
  -- Of two pairs neither of which comes before the other there is only one.
  obtain ⟨i, hi⟩ := h.mem_iff.1 hp
  obtain ⟨j, hj⟩ := h'.mem_iff.1 hq
  exact absurd (hpq i j hi hj) (Nat.lt_asymm (hqp j i hj hi))

theorem length_eq (h : SumsUp pairs history) :
    pairs.length = (history.map Prod.fst).toFinset.card := by
  have hnames : (pairs.map Prod.fst).toFinset = (history.map Prod.fst).toFinset := by
    ext x
    have hhistory : (∃ v i, LastBound history i x v) ↔ x ∈ history.map Prod.fst :=
      exists_lastBound_iff
    rw [List.mem_toFinset, List.mem_toFinset, ← hhistory]
    simp only [List.mem_map, Prod.exists, h.mem_iff, exists_and_right, exists_eq_right]
  rw [← hnames, List.toFinset_card_of_nodup h.nodup, List.length_map]

end SumsUp

end

/-! ## Scopes -/

theorem sumsUp_performAll {s : Scope} {history : List (String × Value)}
    (h : SumsUp s.bindings history) (actions : List Action) :
    SumsUp (s.performAll actions).bindings (history ++ binds actions) := by
  induction actions generalizing s history with
  | nil =>
    rw [binds, List.filterMap_nil, List.append_nil]
    exact h
  | cons action actions ih =>
    cases action with
    | bind name value =>
      have hnext : SumsUp (s.bind name value).bindings (history ++ [(name, value)]) := by
        rw [bindings_bind]
        exact h.concat name value
      have hrest := ih hnext
      rw [List.append_assoc] at hrest
      exact hrest
    | relabel label => exact ih (s := s.relabel label) h

theorem frames_performAll (s : Scope) (actions : List Action) :
    (s.performAll actions).frames = (binds actions).reverse ++ s.frames := by
  induction actions generalizing s with
  | nil => rfl
  | cons action actions ih =>
    have hnext := ih (s.perform action)
    cases action with
    | bind name value =>
      have hbinds : binds (.bind name value :: actions) = (name, value) :: binds actions := rfl
      rw [hbinds, List.reverse_cons, List.append_assoc]
      exact hnext
    | relabel label => exact hnext

theorem isEmpty_performAll_empty (label : Name) (actions : List Action) :
    ((empty label).performAll actions).isEmpty ↔ binds actions = [] := by
  rw [isEmpty, frames_performAll, List.isEmpty_iff]
  exact List.append_eq_nil_iff.trans ((and_iff_left rfl).trans List.reverse_eq_nil_iff)

theorem mem_visible_iff {frames : List (String × Value)} {name : String} {value : Value} :
    (name, value) ∈ visible frames ↔ frames.lookup name = some value := by
  induction frames with
  | nil => exact iff_of_false List.not_mem_nil nofun
  | cons frame frames ih =>
    obtain ⟨name', value'⟩ := frame
    rw [visible_cons, List.mem_cons, List.mem_filter, ih, List.lookup_cons]
    by_cases hname : name = name'
    · simp [hname, eq_comm]
    · simp [hname, beq_eq_false_iff_ne.2 hname]

theorem mem_bindings_iff {s : Scope} {name : String} {value : Value} :
    (name, value) ∈ s.bindings ↔ s.get? name = some value :=
  List.mem_reverse.trans mem_visible_iff

/-- A scope that is built up from an empty one is an ordered map in which a bind moves its name to
the end. Its bindings sum up the history of the binds, and nothing else does; looking a name up
finds its value among them; the size counts the names, and only a scope with no bind is empty; and
the scope is rendered as its bindings in their order. -/
theorem bindings_sum_up_history (label : Name) (actions : List Action) :
    let s := (empty label).performAll actions
    let history := binds actions
    (∀ pairs, SumsUp pairs history ↔ pairs = s.bindings) ∧
    (∀ name value, s.get? name = some value ↔ (name, value) ∈ s.bindings) ∧
    s.size = (history.map Prod.fst).toFinset.card ∧
    (s.isEmpty ↔ history = []) ∧
    s.render = "\x7b " ++
      ", ".intercalate (s.bindings.map fun pair => pair.1 ++ ": " ++ pair.2.render) ++ " \x7d" ∧
    ∀ name value,
      (s.bind name value).bindings = s.bindings.filter (·.1 ≠ name) ++ [(name, value)] := by
  intro s history
  have hsums : SumsUp s.bindings history := sumsUp_performAll (s := empty label) .nil actions
  refine ⟨fun pairs => ⟨fun h => h.unique hsums, fun h => h ▸ hsums⟩,
    fun _ _ => mem_bindings_iff.symm, hsums.length_eq, isEmpty_performAll_empty label actions, rfl,
    s.bindings_bind⟩

example :
    ((((empty Scope.mainLabel).bind "x" (.number 1)).bind "y" .unit).bind "x" (.text "")).render =
      "\x7b y: void, x: \"\" \x7d" := by decide +kernel

end MiniLisp.Scope

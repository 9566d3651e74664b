import MiniLisp.Proofs.Evaluation.Natives
import MiniLisp.Proofs.Evaluation.Threading

/-!
# Calls for each item of a list

`fold` and `map` build a form for each item and evaluate it. What they put into the form is quoted,
so such a form comes to one call of the operation on the values as they are
(`Operates.evaluate_form`), and the calls thread the scope like a monadic fold over the items
(`fold_and_map_call_each_item`).
-/

namespace MiniLisp

/-! ## Folds of runs -/

namespace Run

variable {α β : Type} {f : β → α → Run β} {b : β} {items : List α}

/-- In a fold that completes, the call for each item begins in the state that the items before it
leave, and those after it go on from the state that it leaves. -/
theorem foldlM_of_getElem? {last : β} (h : (items.foldlM f b).result = .ok last) {i : Nat}
    {item : α} (hitem : items[i]? = some item) :
    ∃ before after, ((items.take i).foldlM f b).result = .ok before ∧
      (f before item).result = .ok after ∧
      ((items.drop (i + 1)).foldlM f after).result = .ok last := by
  obtain ⟨hi, rfl⟩ := List.getElem?_eq_some_iff.1 hitem
  rw [← List.take_append_drop i items, List.foldlM_append] at h
  obtain ⟨before, hbefore, h⟩ := result_bind_eq_ok.1 h
  rw [List.drop_eq_getElem_cons hi, List.foldlM_cons] at h
  obtain ⟨after, hafter, hlast⟩ := result_bind_eq_ok.1 h
  exact ⟨before, after, hbefore, hafter, hlast⟩

/-- A fold that fails does so at one item, in the state that the items before it leave. -/
theorem foldlM_of_error {error : Error} (h : (items.foldlM f b).result = .error error) :
    ∃ i item before, items[i]? = some item ∧ ((items.take i).foldlM f b).result = .ok before ∧
      (f before item).result = .error error ∧
      (items.foldlM f b).out = ((items.take i).foldlM f b).out ++ (f before item).out := by
  induction items generalizing b with
  | nil => cases h
  | cons item items ih =>
    rw [List.foldlM_cons] at h ⊢
    rcases hfirst : f b item with ⟨out, e | next⟩
    · rw [hfirst] at h
      cases h
      refine ⟨0, item, b, rfl, rfl, ?_, ?_⟩
      · rw [hfirst]
      · rw [hfirst]
        rfl
    · rw [hfirst] at h
      obtain ⟨i, item', before, hitem, hbefore, hfails, hout⟩ := ih h
      refine ⟨i + 1, item', before, hitem, ?_, hfails, ?_⟩
      · rw [List.take_succ_cons, List.foldlM_cons, hfirst]
        exact hbefore
      · rw [List.take_succ_cons, List.foldlM_cons, hfirst]
        exact (congrArg (out ++ ·) hout).trans (List.append_assoc _ _ _).symm

theorem bind_pure_of_error {x : Run α} {g : α → β} {error : Error}
    (h : (x >>= fun a => Pure.pure (g a)).result = .error error) : x.result = .error error := by
  rcases x with ⟨out, e | a⟩
  · cases h
    rfl
  · cases h

theorem out_bind_pure (x : Run α) (g : α → β) : (x >>= fun a => Pure.pure (g a)).out = x.out := by
  rcases x with ⟨out, e | a⟩
  · rfl
  · exact List.append_nil out

end Run

/-! ## Operations -/

/-- What an operation stands for: a native, or a function. -/
inductive Callee where
  | builtIn (native : Native)
  | function (f : Function)

namespace Callee

/-- A call on values, under a label that ends with it. A native is called by that label. -/
def call (callee : Callee) (ev : Evaluator) (label : Name) (scope : Scope) (vs : List Value) :
    Run (Scope × Value) :=
  relabelled scope.label <| match callee with
    | .builtIn native => native.call ev (scope.relabel label) label vs
    | .function f => f.apply ev (scope.relabel label) vs

/-- One call of a fold, on the accumulator and an item. -/
def foldStep (callee : Callee) (ev : Evaluator) (label : Name) (state : Scope × Value)
    (item : Value) : Run (Scope × Value) :=
  callee.call ev label state.1 [state.2, item]

/-- One call of a map, on an item alone. Its result goes after those before it. -/
def mapStep (callee : Callee) (ev : Evaluator) (label : Name) (state : Scope × List Value)
    (item : Value) : Run (Scope × List Value) := do
  let (after, v) ← callee.call ev label state.1 [item]
  pure (after, state.2 ++ [v])

/-- The items combined with an accumulator by calls from left to right. -/
def fold (callee : Callee) (ev : Evaluator) (label : Name) (scope : Scope) (init : Value)
    (items : List Value) : Run (Scope × Value) :=
  items.foldlM (callee.foldStep ev label) (scope, init)

/-- The results of calls on the items from left to right. -/
def map (callee : Callee) (ev : Evaluator) (label : Name) (scope : Scope) (items : List Value) :
    Run (Scope × List Value) :=
  items.foldlM (callee.mapStep ev label) (scope, [])

end Callee

/-- In `scope` an operation stands for `callee` and is called under `label`. -/
inductive Operates (scope : Scope) : Value → Name → Callee → Prop
  | function (f : Function) : Operates scope f.toValue Scope.anonymousLabel (.function f)
  | builtIn {name : Name} {native : Native} (hname : Native.ofName? name.text = some native) :
      Operates scope (.symbol name) name (.builtIn native)
  | bound {name : Name} {f : Function} (hname : name.IsOrdinary)
      (hbound : scope.get? name.text = some f.toValue) :
      Operates scope (.symbol name) name (.function f)

theorem evaluateForm_function (ev : Evaluator) (scope : Scope) (f : Function) (es : List Value) :
    evaluateForm ev scope (f.toValue :: es) = (do
      let (after, vs) ← evaluateEach ev (scope.relabel Scope.anonymousLabel) es
      f.apply ev after vs) := rfl

namespace Operates

variable {scope : Scope} {operation : Value} {label : Name} {callee : Callee}

/-- The form of an operation and quoted values is the call on the values. -/
theorem evaluate_form (h : Operates scope operation label callee) (budget : Nat)
    (vs : List Value) :
    evaluate (budget + 1) scope (.sequence (operation :: vs.map .quoted)) =
      callee.call (evaluate budget) label scope vs := by
  cases h with
  | function f =>
    have hvs := evaluateEach_quoted budget (scope.relabel Scope.anonymousLabel) vs
    have hform : evaluateForm (evaluate budget) scope (f.toValue :: vs.map .quoted) =
        f.apply (evaluate budget) (scope.relabel Scope.anonymousLabel) vs := by
      rw [evaluateForm_function, hvs, pure_bind]
    rw [evaluate_sequence, hform]
    rfl
  | builtIn hname => exact Native.evaluate_call hname budget scope vs
  | bound hname hbound =>
    have hvs := evaluateEach_quoted budget (scope.relabel label) vs
    rw [evaluate_sequence, evaluateForm_symbol, evaluateNamed_eq_apply hname hvs hbound]
    rfl

theorem after_call (h : Operates scope operation label callee) {ev : Evaluator} {after : Scope}
    {vs : List Value} {v : Value}
    (hcall : (callee.call ev label scope vs).result = .ok (after, v)) :
    Operates after operation label callee := by
  cases h with
  | function f => exact .function f
  | builtIn hname => exact .builtIn hname
  | bound hname hbound =>
    obtain ⟨⟨between, w⟩, happly, hlabel⟩ := Run.result_bind_eq_ok.1 hcall
    cases hlabel
    rw [Function.apply_scope happly]
    exact .bound hname hbound

end Operates

/-! ## Results of a map -/

namespace Callee

variable {callee : Callee} {ev : Evaluator} {label : Name}

theorem mapStep_eq_ok {scope after : Scope} {front results : List Value} {item : Value}
    (h : (callee.mapStep ev label (scope, front) item).result = .ok (after, results)) :
    ∃ v, (callee.call ev label scope [item]).result = .ok (after, v) ∧ results = front ++ [v] := by
  obtain ⟨⟨between, v⟩, hcall, h⟩ := Run.result_bind_eq_ok.1 h
  cases h
  exact ⟨v, hcall, rfl⟩

theorem foldlM_mapStep_eq_ok {items : List Value} {scope after : Scope}
    {front results : List Value}
    (h : (items.foldlM (callee.mapStep ev label) (scope, front)).result = .ok (after, results)) :
    ∃ vs, results = front ++ vs ∧ vs.length = items.length := by
  induction items generalizing scope front with
  | nil =>
    cases h
    exact ⟨[], (List.append_nil _).symm, rfl⟩
  | cons item items ih =>
    rw [List.foldlM_cons] at h
    obtain ⟨⟨between, first⟩, hstep, h⟩ := Run.result_bind_eq_ok.1 h
    obtain ⟨v, -, rfl⟩ := mapStep_eq_ok hstep
    obtain ⟨vs, rfl, hlength⟩ := ih h
    refine ⟨v :: vs, ?_, congrArg Nat.succ hlength⟩
    rw [List.append_assoc, List.singleton_append]

theorem length_map {scope after : Scope} {items results : List Value}
    (h : (callee.map ev label scope items).result = .ok (after, results)) :
    results.length = items.length := by
  obtain ⟨vs, rfl, hlength⟩ := foldlM_mapStep_eq_ok h
  exact hlength

/-- The result of a map in the place of an item is that of the call on this item, in the scope that
the calls before it leave. -/
theorem map_getElem? {scope after : Scope} {items results : List Value}
    (h : (callee.map ev label scope items).result = .ok (after, results)) {i : Nat} {item : Value}
    (hitem : items[i]? = some item) :
    ∃ before between v,
      (callee.map ev label scope (items.take i)).result = .ok (before, results.take i) ∧
      (callee.call ev label before [item]).result = .ok (between, v) ∧ results[i]? = some v := by
  obtain ⟨⟨before, front⟩, ⟨between, front'⟩, hbefore, hstep, hrest⟩ :=
    Run.foldlM_of_getElem? h hitem
  obtain ⟨v, hcall, rfl⟩ := mapStep_eq_ok hstep
  obtain ⟨others, rfl, -⟩ := foldlM_mapStep_eq_ok hrest
  have hlength : front.length = i := by
    obtain ⟨hi, -⟩ := List.getElem?_eq_some_iff.1 hitem
    rw [length_map hbefore, List.length_take_of_le (Nat.le_of_lt hi)]
  subst hlength
  rw [List.append_assoc, List.singleton_append]
  refine ⟨before, between, v, ?_, hcall, ?_⟩
  · rw [List.take_left]
    exact hbefore
  · rw [List.getElem?_append_right (Nat.le_refl _), Nat.sub_self]
    rfl

/-! ## Where a call fails -/

theorem fold_of_error {scope : Scope} {init : Value} {items : List Value} {error : Error}
    (h : (callee.fold ev label scope init items).result = .error error) :
    ∃ i item before accumulator, items[i]? = some item ∧
      (callee.fold ev label scope init (items.take i)).result = .ok (before, accumulator) ∧
      (callee.call ev label before [accumulator, item]).result = .error error ∧
      (callee.fold ev label scope init items).out =
        (callee.fold ev label scope init (items.take i)).out ++
          (callee.call ev label before [accumulator, item]).out := by
  obtain ⟨i, item, ⟨before, accumulator⟩, hfails⟩ := Run.foldlM_of_error h
  exact ⟨i, item, before, accumulator, hfails⟩

theorem map_of_error {scope : Scope} {items : List Value} {error : Error}
    (h : (callee.map ev label scope items).result = .error error) :
    ∃ i item before results, items[i]? = some item ∧
      (callee.map ev label scope (items.take i)).result = .ok (before, results) ∧
      (callee.call ev label before [item]).result = .error error ∧
      (callee.map ev label scope items).out =
        (callee.map ev label scope (items.take i)).out ++
          (callee.call ev label before [item]).out := by
  obtain ⟨i, item, ⟨before, results⟩, hitem, hbefore, hfails, hout⟩ := Run.foldlM_of_error h
  have hsame : (callee.mapStep ev label (before, results) item).out =
      (callee.call ev label before [item]).out := Run.out_bind_pure _ _
  rw [hsame] at hout
  exact ⟨i, item, before, results, hitem, hbefore, Run.bind_pure_of_error hfails, hout⟩

end Callee

/-! ## The two natives -/

section

variable {scope : Scope} {operation : Value} {label : Name} {callee : Callee}

theorem Operates.foldItems_eq (h : Operates scope operation label callee) (budget : Nat)
    (accumulator : Value) (items : List Value) :
    Native.foldItems (evaluate (budget + 1)) operation scope accumulator items =
      callee.fold (evaluate budget) label scope accumulator items := by
  unfold Callee.fold
  induction items generalizing scope accumulator with
  | nil => rfl
  | cons item items ih =>
    have hcall : evaluate (budget + 1) scope
        (.sequence [operation, .quoted accumulator, .quoted item]) =
          callee.call (evaluate budget) label scope [accumulator, item] :=
      h.evaluate_form budget [accumulator, item]
    unfold Native.foldItems
    rw [List.foldlM_cons, hcall, Callee.foldStep]
    rcases hrun : callee.call (evaluate budget) label scope [accumulator, item] with
      ⟨out, e | ⟨after, v⟩⟩
    · rfl
    · have hafter := h.after_call (by rw [hrun])
      rw [Run.bind_ok_eq_after, Run.bind_ok_eq_after]
      exact congrArg (Run.after out) (ih hafter v)

theorem Operates.foldlM_mapStep_eq (h : Operates scope operation label callee) (budget : Nat)
    (results items : List Value) :
    items.foldlM (callee.mapStep (evaluate budget) label) (scope, results) = (do
      let (after, vs) ← evaluateEach (evaluate (budget + 1)) scope
        (items.map fun item => .sequence [operation, .quoted item])
      pure (after, results ++ vs)) := by
  induction items generalizing scope results with
  | nil =>
    rw [List.foldlM_nil, List.map_nil, evaluateEach, pure_bind]
    exact congrArg (fun vs => pure (scope, vs)) (List.append_nil results).symm
  | cons item items ih =>
    have hcall : evaluate (budget + 1) scope (.sequence [operation, .quoted item]) =
        callee.call (evaluate budget) label scope [item] := h.evaluate_form budget [item]
    rw [List.foldlM_cons, List.map_cons, evaluateEach, hcall, Callee.mapStep]
    rcases hrun : callee.call (evaluate budget) label scope [item] with ⟨out, e | ⟨after, v⟩⟩
    · rfl
    · have hafter := h.after_call (by rw [hrun])
      simp only [Run.bind_ok_eq_after, Run.bind_after, pure_bind, bind_assoc, ih hafter,
        List.append_assoc, List.singleton_append]

/-- `fold` and `map` call their operation once for each item, from left to right, on the values as
they are, and thread the scope through the calls. A map has as many results as items, each in the
place of its item. Where a call fails, no further item is looked at, and what was printed is what
the calls before it and the call itself have printed. Without items nothing is called. -/
theorem fold_and_map_call_each_item (h : Operates scope operation label callee) (budget : Nat)
    (name : Name) (init : Value) (items : List Value) :
    let ev := evaluate budget
    Native.fold.call (evaluate (budget + 1)) scope name [operation, init, .sequence items] =
      callee.fold ev label scope init items ∧
    Native.map.call (evaluate (budget + 1)) scope name [operation, .sequence items] = (do
      let (after, results) ← callee.map ev label scope items
      pure (after, .sequence results)) ∧
    (∀ after results, (callee.map ev label scope items).result = .ok (after, results) →
      results.length = items.length ∧ ∀ i item, items[i]? = some item → ∃ before between v,
        (callee.map ev label scope (items.take i)).result = .ok (before, results.take i) ∧
        (callee.call ev label before [item]).result = .ok (between, v) ∧
        results[i]? = some v) ∧
    (∀ error, (callee.fold ev label scope init items).result = .error error →
      ∃ i item before accumulator, items[i]? = some item ∧
        (callee.fold ev label scope init (items.take i)).result = .ok (before, accumulator) ∧
        (callee.call ev label before [accumulator, item]).result = .error error ∧
        (callee.fold ev label scope init items).out =
          (callee.fold ev label scope init (items.take i)).out ++
            (callee.call ev label before [accumulator, item]).out) ∧
    (∀ error, (callee.map ev label scope items).result = .error error →
      ∃ i item before results, items[i]? = some item ∧
        (callee.map ev label scope (items.take i)).result = .ok (before, results) ∧
        (callee.call ev label before [item]).result = .error error ∧
        (callee.map ev label scope items).out =
          (callee.map ev label scope (items.take i)).out ++
            (callee.call ev label before [item]).out) ∧
    ∀ (ev' : Evaluator) (operation' : Value),
      Native.fold.call ev' scope name [operation', init, .sequence []] = pure (scope, init) ∧
      Native.map.call ev' scope name [operation', .sequence []] =
        pure (scope, .sequence []) := by
  have hmap := h.foldlM_mapStep_eq budget [] items
  have hmap' : callee.map (evaluate budget) label scope items =
      evaluateEach (evaluate (budget + 1)) scope
        (items.map fun item => .sequence [operation, .quoted item]) := hmap.trans (bind_pure _)
  refine ⟨h.foldItems_eq budget init items, ?_, ?_, ?_, ?_, ?_⟩
  · rw [hmap']
    rfl
  · intro after results hresults
    exact ⟨Callee.length_map hresults, fun i item => Callee.map_getElem? hresults⟩
  · exact fun error => Callee.fold_of_error
  · exact fun error => Callee.map_of_error
  · exact fun ev' operation' => ⟨rfl, rfl⟩

end

/-- The items are a name that is not bound, a quoted name and a form that would clear the scope;
the bound function keeps each of them and says so. A map of `head` fails at the second list. -/
theorem fold_and_map_call_each_item_quoting :
    ∃ (scope : Scope) (keep head boom clear : Name) (lists : List Value),
      scope.get? boom.text = none ∧ clear.text = "clear_scope" ∧
      Native.fold.call (evaluate 3) scope keep [.symbol keep, .unit,
          .sequence [.symbol boom, .quoted (.symbol boom), .sequence [.symbol clear]]] =
        ⟨["kept", "kept", "kept"], .ok (scope, .sequence [
          .sequence [.sequence [.unit, .symbol boom, .unit], .quoted (.symbol boom), .unit],
          .sequence [.symbol clear], .unit])⟩ ∧
      ∃ i item before results, lists[i]? = some item ∧
        ((Callee.builtIn .head).map (evaluate 0) head scope (lists.take i)).result =
          .ok (before, results) ∧
        ((Callee.builtIn .head).call (evaluate 0) head before [item]).result =
          .error (.emptySequence "head") := by
  let f : Function :=
    { parameters := ["kept", "item"]
      body := .sequence [.symbol ⟨"list", by decide⟩, .symbol ⟨"kept", by decide⟩,
        .symbol ⟨"item", by decide⟩, .sequence [.symbol ⟨"print", by decide⟩, .text "kept"]] }
  let keep : Name := ⟨"keep", by decide⟩
  let head : Name := ⟨"head", by decide⟩
  let boom : Name := ⟨"boom", by decide⟩
  let clear : Name := ⟨"clear_scope", by decide⟩
  let scope : Scope := Scope.initial.bind "keep" f.toValue
  let items : List Value := [.symbol boom, .quoted (.symbol boom), .sequence [.symbol clear]]
  let lists : List Value := [.sequence [.number 1], .sequence [], .sequence [.number 2]]
  have hkeep : Operates scope (.symbol keep) keep (.function f) :=
    .bound ⟨by decide, by decide, by decide⟩ rfl
  have hhead : Operates scope (.symbol head) head (.builtIn .head) := .builtIn rfl
  have hcall (kept item : Value) :
      (Callee.function f).call (evaluate 2) keep scope [kept, item] =
        ⟨["kept"], .ok (scope, .sequence [kept, item, .unit])⟩ := rfl
  have hfails : ((Callee.builtIn .head).map (evaluate 0) head scope lists).result =
      .error (.emptySequence "head") := rfl
  obtain ⟨hfold, -⟩ := fold_and_map_call_each_item hkeep 2 keep .unit items
  obtain ⟨-, -, -, -, hmap, -⟩ := fold_and_map_call_each_item hhead 0 head .unit lists
  obtain ⟨i, item, before, results, hitem, hbefore, hlast, -⟩ := hmap _ hfails
  refine ⟨scope, keep, head, boom, clear, lists, rfl, rfl, hfold.trans ?_, i, item, before,
    results, hitem, hbefore, hlast⟩
  simp only [Callee.fold, Callee.foldStep, items, List.foldlM_cons, List.foldlM_nil, hcall,
    Run.bind_ok, Run.pure_eq, List.cons_append, List.nil_append]

end MiniLisp

import MiniLisp.Error

/-!
Runs: what a computation prints, together with the value or the error it ends in. What was printed
before an error stays printed.
-/

namespace MiniLisp

structure Run (α : Type) where
  /-- The lines printed, first to last. -/
  out : List String
  result : Except Error α

namespace Run

variable {α β : Type}

/-- A run that prints nothing and ends in the given result. -/
def ofExcept (result : Except Error α) : Run α := ⟨[], result⟩

def fail (e : Error) : Run α := ⟨[], .error e⟩

def print (line : String) : Run Unit := ⟨[line], .ok ()⟩

/-- A run, then the one chosen by its value; an error ends the whole. -/
def bind (x : Run α) (f : α → Run β) : Run β :=
  match x.result with
  | .ok a =>
    let y := f a
    ⟨x.out ++ y.out, y.result⟩
  | .error e => ⟨x.out, .error e⟩

instance : Monad Run where
  pure a := ⟨[], .ok a⟩
  bind := bind

/-- The same run, with its error, if any, replaced. -/
def mapError (f : Error → Error) (x : Run α) : Run α := ⟨x.out, x.result.mapError f⟩

/-- The same run, with more lines printed before its own. -/
def prepend (out : List String) (x : Run α) : Run α := ⟨out ++ x.out, x.result⟩

def printed (x : Run α) : String := String.join (x.out.map (· ++ "\n"))

@[ext]
theorem ext {x y : Run α} (hout : x.out = y.out) (hresult : x.result = y.result) : x = y := by
  cases x; cases y; simp_all

@[simp]
theorem pure_eq (a : α) : (pure a : Run α) = ⟨[], .ok a⟩ := rfl

@[simp]
theorem bind_ok (out : List String) (a : α) (f : α → Run β) :
    (⟨out, .ok a⟩ : Run α) >>= f = ⟨out ++ (f a).out, (f a).result⟩ := rfl

@[simp]
theorem bind_error (out : List String) (e : Error) (f : α → Run β) :
    (⟨out, .error e⟩ : Run α) >>= f = ⟨out, .error e⟩ := rfl

instance : LawfulMonad Run := LawfulMonad.mk' _
  (fun x => by rcases x with ⟨out, _ | a⟩ <;> simp [Functor.map, bind])
  (fun _ _ => by simp)
  (fun x f g => by
    rcases x with ⟨out, _ | a⟩
    · simp
    · rcases h : f a with ⟨out', _ | b⟩ <;> simp [h])

end Run

end MiniLisp

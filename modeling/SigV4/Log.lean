import SigV4.Error

/-!
Records written along the way.

A computation may write records beside its result. They are kept when it fails, and they never
change what it does: the result of a logged computation is the one of the same computation
without records.
-/

namespace SigV4

/-- How much a record matters. -/
inductive Log.Level where
  | debug
  deriving DecidableEq, Repr

/-- One record. -/
structure Log.Record where
  level : Log.Level
  text : String
  deriving DecidableEq, Repr

/-- A value and the records written while it was computed. -/
structure Logged (α : Type) where
  value : α
  log : List Log.Record

namespace Logged

instance : Monad Logged where
  pure a := ⟨a, []⟩
  bind x f := ⟨(f x.value).value, x.log ++ (f x.value).log⟩

@[simp] theorem value_pure {α : Type} (a : α) : (pure a : Logged α).value = a := rfl

@[simp] theorem log_pure {α : Type} (a : α) : (pure a : Logged α).log = [] := rfl

@[simp] theorem value_bind {α β : Type} (x : Logged α) (f : α → Logged β) :
    (x >>= f).value = (f x.value).value := rfl

@[simp] theorem log_bind {α β : Type} (x : Logged α) (f : α → Logged β) :
    (x >>= f).log = x.log ++ (f x.value).log := rfl

instance : LawfulMonad Logged :=
  LawfulMonad.mk' Logged (fun x => by cases x; simp [Functor.map])
    (fun a f => by simp [pure, bind]) (fun x f g => by simp [bind])

end Logged

/-- Writes a record. -/
def debug (text : String) : Logged Unit := ⟨(), [⟨.debug, text⟩]⟩

@[simp] theorem value_debug (text : String) : (debug text).value = () := rfl

@[simp] theorem log_debug (text : String) : (debug text).log = [⟨.debug, text⟩] := rfl

/-- A computation that writes records and may fail. -/
abbrev Signing := ExceptT Error Logged

namespace Signing

/-- What a computation comes to, without its records. -/
def result {α : Type} (x : Signing α) : Except Error α := x.run.value

/-- The records of a computation. -/
def log {α : Type} (x : Signing α) : List Log.Record := x.run.log

variable {α β : Type}

@[simp] theorem result_pure (a : α) : (pure a : Signing α).result = .ok a := rfl

@[simp] theorem log_pure (a : α) : (pure a : Signing α).log = [] := rfl

@[simp] theorem result_throw (e : Error) : (throw e : Signing α).result = .error e := rfl

@[simp] theorem log_throw (e : Error) : (throw e : Signing α).log = [] := rfl

@[simp] theorem result_ofLogged (x : Logged α) : (liftM x : Signing α).result = .ok x.value := rfl

@[simp] theorem log_ofLogged (x : Logged α) : (liftM x : Signing α).log = x.log :=
  List.append_nil _

@[simp] theorem result_ofExcept (x : Except Error α) : (liftM x : Signing α).result = x := rfl

@[simp] theorem log_ofExcept (x : Except Error α) : (liftM x : Signing α).log = [] := rfl

@[simp] theorem result_bind (x : Signing α) (f : α → Signing β) :
    (x >>= f).result = x.result >>= fun a => (f a).result := by
  obtain ⟨v, l⟩ := x
  rcases v with e | a <;> rfl

theorem log_bind (x : Signing α) (f : α → Signing β) :
    (x >>= f).log = x.log ++ match x.result with
      | .ok a => (f a).log
      | .error _ => [] := by
  obtain ⟨v, l⟩ := x
  rcases v with e | a <;> rfl

end Signing

end SigV4

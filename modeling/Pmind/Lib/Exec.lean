import Mathlib.Tactic.Common

/-!
# Programs with a state that may fail

What a program in `ExceptT ε (StateM σ)` comes to, `exec`, operation by operation: a bind goes on
with what its first part gave, or ends with its error, and in both cases in the state it left.
-/

namespace Fallible

variable {σ ε ε' α β : Type}

def exec (m : ExceptT ε (StateM σ) α) (s : σ) : Except ε α × σ := m.run.run s

theorem exec_pure (a : α) (s : σ) : exec (pure a : ExceptT ε (StateM σ) α) s = (.ok a, s) := rfl

theorem exec_get (s : σ) : exec (get : ExceptT ε (StateM σ) σ) s = (.ok s, s) := rfl

theorem exec_set (s s' : σ) : exec (set s' : ExceptT ε (StateM σ) PUnit) s = (.ok ⟨⟩, s') := rfl

theorem exec_modify (f : σ → σ) (s : σ) :
    exec (modify f : ExceptT ε (StateM σ) PUnit) s = (.ok ⟨⟩, f s) := rfl

theorem exec_bind (m : ExceptT ε (StateM σ) α) (f : α → ExceptT ε (StateM σ) β) (s : σ) :
    exec (m >>= f) s = match exec m s with
      | (.ok a, s') => exec (f a) s'
      | (.error e, s') => (.error e, s') := by
  rcases h : exec m s with ⟨e | a, s'⟩ <;>
    · have h' : m s = _ := h
      simp only [exec, Bind.bind, ExceptT.run, ExceptT.bind, ExceptT.mk, StateT.run, StateT.bind,
        h']
      rfl

theorem exec_bind_ok {m : ExceptT ε (StateM σ) α} {a : α} {s s' : σ}
    (h : exec m s = (.ok a, s')) (f : α → ExceptT ε (StateM σ) β) :
    exec (m >>= f) s = exec (f a) s' := by
  rw [exec_bind, h]

theorem exec_bind_error {m : ExceptT ε (StateM σ) α} {e : ε} {s s' : σ}
    (h : exec m s = (.error e, s')) (f : α → ExceptT ε (StateM σ) β) :
    exec (m >>= f) s = (.error e, s') := by
  rw [exec_bind, h]

theorem exec_adapt (f : ε → ε') (m : ExceptT ε (StateM σ) α) (s : σ) :
    exec (m.adapt f) s = ((exec m s).1.mapError f, (exec m s).2) :=
  rfl

theorem exec_ite (c : Prop) [Decidable c] (m m' : ExceptT ε (StateM σ) α) (s : σ) :
    exec (if c then m else m') s = if c then exec m s else exec m' s := by
  split_ifs <;> rfl

theorem exec_unless (ok : Bool) (e : ε) (s : σ) :
    exec (if ok = true then pure ⟨⟩ else throw e : ExceptT ε (StateM σ) PUnit) s
      = (if ok = true then .ok ⟨⟩ else .error e, s) := by
  rcases ok <;> rfl

end Fallible

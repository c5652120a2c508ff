import Leasehold.Session

/-! # Clients with overrides

An overridden client takes one override per call: the store may change behind the session's back
just before the call, and the call may then fail or get a prepared reply in place of the store's
own. Calls without an override go to the store. The calls made are kept. -/

namespace Leasehold

/-- What takes the place of a store's reply. -/
inductive CallOverride.Reply where
  | original
  | fault (f : Fault)
  | value (v : Value)

/-- One override, with changes `μ` of the store that come first. -/
structure CallOverride (μ : Type) where
  before : List μ := []
  reply : CallOverride.Reply := .original

/-- A store that can be overridden: how it takes calls and changes from outside, which calls take
overrides, and how a prepared value reads as the reply of a call; `none` lets the call go to the
store. -/
structure Overridable (I : Interface) (σ μ : Type) where
  client : Session.Client I σ
  disturb : μ → σ → σ
  takesOverride : I.Call → Bool := fun _ => true
  prepared : (c : I.Call) → Value → Option (I.Reply c)

/-- A store with the overrides still to come and the calls made so far. -/
structure Overridden (I : Interface) (σ μ : Type) where
  store : σ
  overrides : List (Option (CallOverride μ)) := []
  calls : List I.Call := []

namespace Overridable
variable {I : Interface} {σ μ : Type} (target : Overridable I σ μ)

/-- Takes a call without regard to overrides. -/
def serve (c : I.Call) (s : Overridden I σ μ) : Except Fault (I.Reply c) × Overridden I σ μ :=
  let (reply, store) := target.client c s.store
  (reply, { s with store })

/-- Takes a call by the next override. -/
def overridden : Session.Client I (Overridden I σ μ) := fun c s =>
  let s := { s with calls := s.calls ++ [c] }
  if !target.takesOverride c then target.serve c s
  else match s.overrides with
    | [] => target.serve c s
    | none :: overrides => target.serve c { s with overrides }
    | some o :: overrides =>
      let s := { s with overrides, store := o.before.foldl (fun store m => target.disturb m store) s.store }
      match o.reply with
      | .original => target.serve c s
      | .fault f => (.error f, s)
      | .value v => match target.prepared c v with
        | some reply => (.ok reply, s)
        | none => target.serve c s

end Overridable

end Leasehold

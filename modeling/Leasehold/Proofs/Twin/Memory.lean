import Leasehold.Proofs.Execution.Memory
import Leasehold.Proofs.Twin

/-!
# Two runs on records in memory

Operations that decide alike, on what lies under their keys, run alike.
-/

namespace Leasehold.Memory
open Session
variable {Γ : Context → Context → Prop} {T : Store → Store → Prop} {s s' : Store}
  {op op' : Operation} {c c' : Claim} {r : String → String}

theorem twin_attempt (h : op.Twins op' c c') (hT : T s s')
    (hv : op'.decide (Assoc.find? s' c'.key) = (op.decide (Assoc.find? s c.key)).rename r)
    (hl : T (leaves op c s) (leaves op' c' s')) :
    Twin Γ T client (RenamesVerdict r) (op.attempt service c) (op'.attempt service c') s s' := by
  have hp : op'.permits (Assoc.find? s' c'.key) = op.permits (Assoc.find? s c.key) := by
    rw [← Operation.isSuccess_decide, hv, ← Operation.isSuccess_decide]
    rfl
  have hask (call call' : Call) (hserved : T (client call s).2 (client call' s').2)
      (h : Alike (fun _ _ => True) (client call s).1 (client call' s').1) :
        Twin Γ T client (RenamesVerdict r)
        ((ask (I := interface) call).bind fun _ => done (op.decide (Assoc.find? s c.key)))
        ((ask (I := interface) call').bind fun _ => done (op'.decide (Assoc.find? s' c'.key))) s
          s' :=
    twin_ask _ _ hT hserved (h.mono fun _ _ _ => twin_done hserved hv)
  rw [attempt_eq h.check, attempt_eq h.check']
  refine twin_ask (I := interface) (.read c.key) (.read c'.key) hT hT (.ok ?_)
  show Twin Γ T client _ ((change op c (Assoc.find? s c.key)).bind _)
    ((change op' c' (Assoc.find? s' c'.key)).bind _) s s'
  rw [change, change, hp]
  rw [leaves, leaves, hp] at hl
  revert hl
  cases op.permits (Assoc.find? s c.key) with
  | false => exact fun _ => twin_done hT hv
  | true =>
    -- one of them may write where the other clears its key
    cases op.written Decision.extend (Assoc.find? s c.key) <;>
      cases op'.written Decision.extend (Assoc.find? s' c'.key)
    · exact fun hl => hask (.remove _) (.remove _) hl (.ok trivial)
    · exact fun hl => hask (.remove _) (.write _ _) hl (.ok trivial)
    · exact fun hl => hask (.write _ _) (.remove _) hl (.ok trivial)
    · exact fun hl => hask (.write _ _) (.write _ _) hl (.ok trivial)

theorem twin_renamed (hr : r.Injective) (h : op.Twins (op.rename r) c (c.rename r)) (hT : T s s')
    (hf : Assoc.find? s' c.key = (Assoc.find? s c.key).map (Lock.rename r))
    (hput : ∀ l, T (Assoc.put s c.key l) (Assoc.put s' c.key (l.rename r)))
    (herase : T (Assoc.erase s c.key) (Assoc.erase s' c.key)) :
    Twin Γ T client (RenamesVerdict r) (op.attempt service c)
      ((op.rename r).attempt service (c.rename r)) s s' := by
  have hkey : (c.rename r).key = c.key := rfl
  refine twin_attempt h hT ?_ ?_
  · rw [hkey, hf, Operation.decide_rename hr]
  · rw [leaves, leaves, hkey, hf, Operation.permits_rename hr, Operation.written_rename]
    cases op.permits (Assoc.find? s c.key) with
    | false => exact hT
    | true =>
      cases op.written Decision.extend (Assoc.find? s c.key) with
      | none => exact herase
      | some l => exact hput l

theorem twin_find {R : Option Lock → Option Lock → Prop} {realm name : String} (hT : T s s')
    (h : R (Assoc.find? s (Lock.keyOf realm name)) (Assoc.find? s' (Lock.keyOf realm name))) :
    Twin Γ T client (fun l l' _ _ => R l l') (find realm name) (find realm name) s s' := by
  rw [← bind_done (find realm name)]
  exact twin_ask (I := interface) (.read _) (.read _) hT hT (.ok (twin_done hT h))

end Leasehold.Memory

import Leasehold.Proofs.Execution.Table
import Leasehold.Proofs.Twin

/-!
# Two runs on an SQL table

Statements that come out alike make operations that run alike.
-/

namespace Leasehold.Table
open Session
variable {Γ : Context → Context → Prop} {T : Store → Store → Prop} {s s' : Store}
  {options options' : Options} {op op' : Operation} {c c' : Claim} {r : String → String}

theorem twin_query {α β : Type} {R : α → β → Store → Store → Prop}
    {statement statement' : Statement} {k : Option Row → Session interface α}
    {k' : Option Row → Session interface β} (hT : T s s')
    (hx : Alike (fun p p' => T p.2 p'.2 ∧ Twin Γ T client R (k p.1) (k' p'.1) p.2 p'.2)
      (s.execute statement)
      (s'.execute statement')) :
    Twin Γ T client R ((query options statement).bind k)
      ((query options' statement').bind k') s s' := by
  refine twin_ask (I := interface) ⟨options.table, statement⟩ ⟨options'.table, statement'⟩ hT ?_ ?_
  all_goals
    revert hx
    cases hp : s.execute statement <;> cases hp' : s'.execute statement' <;> rintro ⟨⟩
    · rw [client, client_of_error hp, client_of_error hp']
      first | exact hT | exact .error _
    · rw [client, client_of_ok hp, client_of_ok hp']
      rename_i h
      first | exact h.1 | exact .ok h.2

/-- The second verdict is the first with other instance ids, or neither can be read. -/
abbrev Renamed (r : String → String) : Except Fault Verdict → Except Fault Verdict → Prop :=
  Alike fun v v' => v' = v.rename r

/-- The verdicts of two statements, and of the second ones of releases that deleted nothing. -/
theorem twin_attempt (h : op.Twins op' c c') (hT : T s s')
    (hx : Alike (fun p p' => T p.2 p'.2 ∧ p'.1.isSome = p.1.isSome ∧
      Renamed r (verdict op p.1) (verdict op' p'.1))
      (s.execute (statement options op c)) (s'.execute (statement options' op' c')))
    (hlook : op.kind = .release → Alike (fun p p' => Renamed r (classified p.1) (classified p'.1))
      (s.execute (.selectExpired c.realm c.name (options.clock op.now)))
      (s'.execute (.selectExpired c'.realm c'.name (options'.clock op'.now)))) :
    Twin Γ T client (RenamesVerdict r) (op.attempt (service options) c)
      (op'.attempt (service options') c') s s' := by
  by_cases hk : op.kind = .release
  · rw [attempt_eq_release hk, attempt_eq_release (h.kind.trans hk), guarded, guarded, h.kind]
    have hlook := hlook hk
    simp only [h.realm, h.name] at hlook ⊢
    refine Service.twin_guarded (twin_query hT ?_) fun _ _ _ => rfl
    revert hx
    cases hp : s.execute (statement options op c) <;>
      cases hp' : s'.execute (statement options' op' c') <;> rintro ⟨⟩
    · exact .error _
    rename_i p p' hpp
    obtain ⟨row, t⟩ := p
    obtain ⟨row', t'⟩ := p'
    obtain ⟨hTt, hsome, hv⟩ := hpp
    refine .ok ⟨hTt, ?_⟩
    cases row with
    | some row =>
      obtain ⟨row', rfl⟩ := Option.isSome_iff_exists.mp hsome
      exact twin_ofReading hTt hv
    | none =>
      obtain rfl : row' = none := by simpa using hsome
      -- nothing was deleted, and the second statement only looks
      rw [execute_none hp, execute_none hp']
      refine twin_query hT ?_
      revert hlook
      cases hq : s.execute (.selectExpired c.realm c.name (options.clock op.now)) <;>
        cases hq' : s'.execute (.selectExpired c.realm c.name (options'.clock op'.now)) <;>
          rintro ⟨⟩
      · exact .error _
      · rename_i hl
        refine .ok ?_
        rw [(classified_of_selectExpired hq).1, (classified_of_selectExpired hq').1]
        simp only [id, bind_done]
        exact ⟨hT, twin_ofReading hT hl⟩
  · rw [attempt_eq options c hk, attempt_eq options' c' (h.kind ▸ hk), guarded, guarded, h.kind]
    simp only [h.realm, h.name]
    refine Service.twin_guarded (twin_query hT (hx.mono fun p p' hp => ⟨hp.1, ?_⟩)) fun _ _ _ => rfl
    simp only [id, bind_done]
    exact twin_ofReading hp.1 hp.2.2

/-! ### Other instance ids -/

/-- The row with its instance id renamed. -/
abbrev Row.rename (r : String → String) (row : Row) : Row := Value.Fields.rename r "instance_id" row

section Rows
variable {row : Row}

theorem cell_rename_ne {name : String} (h : name ≠ "instance_id") :
    cell (Row.rename r row) name = cell row name := by
  rw [cell, cell, Value.Fields.find?_rename_ne h]

theorem cell_rename :
    cell (Row.rename r row) "instance_id" = (cell row "instance_id").rename r := by
  rw [cell, cell, Value.Fields.find?_rename, Value.rename_getD]

theorem shown_rename : shown (Row.rename r row) = Row.rename r (shown row) := by
  simp only [shown, Row.rename, Value.Fields.rename, Assoc.mapAt, Assoc.mapValues, List.map_map]
  refine List.map_congr_left fun name _ => ?_
  by_cases hn : name = "instance_id"
  · subst hn
    exact congrArg (Prod.mk _) cell_rename
  · simp only [Function.comp_apply, if_neg hn]
    exact congrArg (Prod.mk _) (cell_rename_ne hn)

theorem isExpired_rename (now : Int) : isExpired (Row.rename r row) now = isExpired row now := by
  rw [isExpired, isExpired, cell_rename_ne (by decide)]

theorem isHeldBy_rename (hr : r.Injective) (c : Claim) :
    isHeldBy (Row.rename r row) (c.rename r) = isHeldBy row c := by
  have htext (v : Value) : isText (v.rename r) (c.rename r).instanceId = isText v c.instanceId := by
    cases v with
    | text i => exact congrArg (fun b => Except.ok (some b)) (decide_eq_decide.mpr hr.eq_iff)
    | _ => rfl
  rw [isHeldBy, isHeldBy, cell_rename_ne (by decide), cell_rename, htext]
  rfl

/-! Rows that come back. -/

theorem column_rename_ne {name : String} (h : name ≠ "instance_id") :
    column (Row.rename r row) name = column row name := by
  rw [column, column, Lock.demand, Lock.demand, Value.Fields.find?_rename_ne h]

theorem column_rename :
    column (Row.rename r row) "instance_id" = (column row "instance_id").map (Value.rename r) := by
  simp only [column, Lock.demand, Row.rename, Value.Fields.find?_rename]
  cases Assoc.find? row "instance_id" <;> rfl

theorem ofRow_rename : ofRow (Row.rename r row) = (ofRow row).map (Lock.rename r) := by
  have hint {name : String} (h : name ≠ "instance_id") : columnInt (Row.rename r row) name =
    columnInt row name := by
    rw [columnInt, columnInt, column_rename_ne h]
  refine (Alike.eq_map ?_)
  simp only [ofRow, column_rename_ne (by decide : "namespace" ≠ "instance_id"),
    column_rename_ne (by decide : "lock_name" ≠ "instance_id"),
    column_rename_ne (by decide : "owner" ≠ "instance_id"),
    hint (by decide : "lease_duration" ≠ "instance_id"),
    hint (by decide : "expiry" ≠ "instance_id"), column_rename]
  refine .bind_self fun realm => .bind_self fun name => .bind_self fun owner =>
    (Alike.map_right _ _).bind ?_
  rintro v _ rfl
  refine .bind_self fun lease => .bind_self fun expiry => .ok ?_
  rw [Lock.identity_rename]
  rfl

theorem decoded_rename {row : Option Row} :
    decoded (row.map (Row.rename r)) = (decoded row).map (Option.map (Lock.rename r)) := by
  cases row with
  | none => rfl
  | some row =>
    simp only [decoded, Option.map_some, ofRow_rename]
    cases ofRow row <;> rfl

theorem reading_rename {row : Option Row} :
    reading (row.map (Row.rename r)) = (reading row).map (Option.map (Lock.rename r)) := by
  rw [reading, reading, ← decoded_rename, Option.map_map, Option.map_map]
  exact congrArg (fun f => decoded (row.map f)) (funext fun _ => shown_rename)

end Rows

section Renamed

/-- What a statement returns that left these tables. -/
abbrev Returns (r : String → String) (T : Store → Store → Prop) :
    Option Row × Store → Option Row × Store → Prop :=
  fun p p' => T p.2 p'.2 ∧ p'.1 = p.1.map (Row.rename r)

/-- The rows of a lock in two tables, and what may become of them. -/
structure Rows (r : String → String) (T : Store → Store → Prop) (s s' : Store)
    (c : Claim) : Prop where
  left : T s s'
  clock : s'.serverNow = s.serverNow
  found : Assoc.find? s'.rows (c.realm, c.name) = (Assoc.find? s.rows (c.realm, c.name)).map
    (Row.rename r)
  put : ∀ row, T { s with rows := Assoc.put s.rows (c.realm, c.name) row }
    { s' with rows := Assoc.put s'.rows (c.realm, c.name) (Row.rename r row) }
  erase : T { s with rows := Assoc.erase s.rows (c.realm, c.name) }
    { s' with rows := Assoc.erase s'.rows (c.realm, c.name) }

theorem Rows.time (h : Rows r T s s' c) (clock : Clock) : clock.time s' = clock.time s := by
  cases clock with
  | server => exact h.clock
  | caller => rfl

theorem Rows.returns_none (h : Rows r T s s' c) :
    Alike (Returns r T) (.ok (none, s) : Except Fault _) (.ok (none, s')) :=
  .ok ⟨h.left, rfl⟩

section Execute
variable (hr : r.Injective) (h : Rows r T s s' c)
include hr h

theorem execute_upsert_rename (lease expiry : Int) (clock : Clock) :
    Alike (Returns r T) (s.execute (.upsert c lease expiry clock))
      (s'.execute (.upsert (c.rename r) lease expiry clock)) := by
  have hgranted : Alike (Returns r T)
      (.ok (some [("namespace", .text c.realm)],
        { s with rows := Assoc.put s.rows (c.realm, c.name) (rowOf c lease expiry) }) :
        Except Fault _)
      (.ok (some [("namespace", .text c.realm)],
        { s' with
          rows := Assoc.put s'.rows (c.realm, c.name) (rowOf (c.rename r) lease expiry) })) :=
    .ok ⟨h.put (rowOf c lease expiry), rfl⟩
  have hfound : Assoc.find? s'.rows ((c.rename r).realm, (c.rename r).name) = _ := h.found
  simp only [Store.execute, bound_raw, ok_bind, hfound]
  cases Assoc.find? s.rows (c.realm, c.name) with
  | none => exact hgranted
  | some row =>
    simp only [Option.map_some, isExpired_rename, isHeldBy_rename hr, h.time]
    refine .bind_self fun expired => .bind_self fun held => ?_
    split
    · exact hgranted
    · exact h.returns_none

theorem execute_extend_rename (delta : Int) (clock : Clock) :
    Alike (Returns r T) (s.execute (.extend c delta clock))
      (s'.execute (.extend (c.rename r) delta clock)) := by
  have hfound : Assoc.find? s'.rows ((c.rename r).realm, (c.rename r).name) = _ := h.found
  simp only [Store.execute, bound_raw, ok_bind, hfound]
  cases Assoc.find? s.rows (c.realm, c.name) with
  | none => exact h.returns_none
  | some row =>
    simp only [Option.map_some, isExpired_rename, isHeldBy_rename hr, h.time,
      cell_rename_ne (by decide : "lease_duration" ≠ "instance_id"),
      cell_rename_ne (by decide : "expiry" ≠ "instance_id")]
    refine .bind_self fun lease => .bind_self fun expiry => .bind_self fun expired =>
      .bind_self fun held => ?_
    split
    · have hrow : Assoc.put (Assoc.put (Row.rename r row) "lease_duration" lease) "expiry" expiry =
          Row.rename r (Assoc.put (Assoc.put row "lease_duration" lease) "expiry" expiry) := by
        rw [Row.rename, Row.rename, Value.Fields.put_rename_ne
          (by decide : "expiry" ≠ "instance_id"),
          Value.Fields.put_rename_ne (by decide : "lease_duration" ≠ "instance_id")]
      rw [hrow, shown_rename]
      exact .ok ⟨h.put _, rfl⟩
    · exact h.returns_none

theorem execute_delete_rename (clock : Clock) :
    Alike (Returns r T) (s.execute (.delete c clock))
      (s'.execute (.delete (c.rename r) clock)) := by
  have hfound : Assoc.find? s'.rows ((c.rename r).realm, (c.rename r).name) = _ := h.found
  simp only [Store.execute, bound_raw, ok_bind, hfound]
  cases Assoc.find? s.rows (c.realm, c.name) with
  | none => exact h.returns_none
  | some row =>
    simp only [Option.map_some, isExpired_rename, isHeldBy_rename hr, h.time]
    refine .bind_self fun held => .bind_self fun expired => ?_
    split
    · exact .ok ⟨h.erase, rfl⟩
    · exact h.returns_none

theorem execute_rename : Alike (Returns r T)
    (s.execute (statement options op c))
      (s'.execute (statement options (op.rename r) (c.rename r))) := by
  cases hk : op.kind <;> simp only [statement, hk, Operation.rename]
  · exact execute_upsert_rename hr h _ _ _
  · exact execute_extend_rename hr h _ _
  · exact execute_delete_rename hr h _

end Execute

theorem verdict_rename {row : Option Row} :
    Renamed r (verdict op row) (verdict (op.rename r) (row.map (Row.rename r))) := by
  have hkind : (op.rename r).kind = op.kind := rfl
  cases row with
  | none => cases hk : op.kind <;> simp only [verdict, hkind, hk, Option.map_none] <;> exact .ok rfl
  | some row =>
    cases hk : op.kind <;> simp only [verdict, hkind, hk, Option.map_some]
    · exact .ok rfl
    · rw [ofRow_rename]
      cases ofRow row with
      | error f => exact .error f
      | ok l => exact .ok rfl
    · have hflag : expiredFlag (Row.rename r row) = expiredFlag row := by
        rw [expiredFlag, expiredFlag, column_rename_ne (by decide)]
      rw [hflag]
      cases expiredFlag row with
      | error f => exact .error f
      | ok expired => exact .ok rfl

theorem classified_rename (h : Rows r T s s' c) (clock : Clock) :
    Alike (fun p p' => Renamed r (classified p.1) (classified p'.1))
      (s.execute (.selectExpired c.realm c.name clock))
        (s'.execute (.selectExpired c.realm c.name clock)) := by
  simp only [Store.execute, boundText, ok_bind, h.found]
  cases Assoc.find? s.rows (c.realm, c.name) with
  | none => exact .ok (.ok rfl)
  | some row =>
    simp only [Option.map_some, isExpired_rename, h.time]
    refine .bind_self fun expired => .ok ?_
    rw [classified, expiredFlag_row]
    exact .ok rfl

theorem twin_renamed (hr : r.Injective) (h : op.Twins (op.rename r) c (c.rename r))
    (hrows : Rows r T s s' c) :
    Twin Γ T client (RenamesVerdict r) (op.attempt (service options) c)
      ((op.rename r).attempt (service options) (c.rename r))
      s s' := by
  refine twin_attempt h hrows.left ((execute_rename hr hrows).mono fun p p' hp => ?_) fun _ =>
    classified_rename hrows _
  obtain ⟨hT, hrow⟩ := hp
  rw [hrow]
  exact ⟨hT, Option.isSome_map .., verdict_rename⟩

end Renamed

theorem twin_find {R : Option Lock → Option Lock → Prop} {realm name : String} (hT : T s s')
    (hnone : R none none)
    (h : Alike R (reading (Assoc.find? s.rows (realm, name)))
      (reading (Assoc.find? s'.rows (realm, name)))) :
    Twin Γ T client (fun l l' _ _ => R l l') (find options realm name)
      (find options realm name) s s' := by
  rw [find_eq]
  simp only [id, bind_done]
  exact Service.twin_guarded (twin_query hT (.ok ⟨hT, twin_ofReading hT h⟩)) fun _ _ _ => hnone

end Leasehold.Table

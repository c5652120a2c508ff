import Mathlib.Data.Nat.Find
import Mathlib.Logic.ExistsUnique
import Leasehold.Config.Overlay
import Leasehold.Proofs.Paths

/-!
# Overlays, path by path

Where base and layer both hold a map, so does the overlay, with the keys of both (`at?_overlay`,
`mem_keys_overlayFields`). From there on the layer has the say when it has the next key, and the
base when it has not (`at?_overlay_append`). In the layer no key may stand twice, as in all that is
read from files.
-/

namespace Leasehold.Config
open Value

section Overlay
variable {layer : Value.Fields} {b l : Value}

theorem overlay_map (base layer : Value.Fields) :
    overlay (.map base) (.map layer) = .map (overlayFields base layer) := by
  rw [overlay]

theorem overlay_whole (h : ∀ fields fields', b = .map fields → l ≠ .map fields') :
    overlay b l = l := by
  rw [overlay]
  exact h

theorem maps_or_whole (b l : Value) :
    (∃ fields fields', b = .map fields ∧ l = .map fields') ∨ overlay b l = l := by
  by_cases hmaps : ∃ fields fields', b = .map fields ∧ l = .map fields'
  · exact .inl hmaps
  · exact .inr (overlay_whole fun fields fields' hb hl => hmaps ⟨fields, fields', hb, hl⟩)

theorem eq_some_of_getD {o : Option Value} {fields : Value.Fields}
    (h : o.getD .null = .map fields) :
    o = some (.map fields) := by
  cases o with
  | none => cases h
  | some v => exact congrArg some h

/-- Where nothing is, it is as if null were there. -/
theorem overlayAt_eq (o : Option Value) (l : Value) : overlayAt o l = overlay (o.getD .null) l := by
  by_cases hmaps : ∃ fields fields', o = some (.map fields) ∧ l = .map fields'
  · obtain ⟨fields, fields', rfl, rfl⟩ := hmaps
    rw [overlayAt, Option.getD_some, overlay]
  · have hmaps (fields fields' : Value.Fields) (ho : o = some (.map fields))
      (hl : l = .map fields') : False :=
      hmaps ⟨fields, fields', ho, hl⟩
    rw [overlayAt, overlay_whole]
    · exact fun fields fields' hb => hmaps fields fields' (eq_some_of_getD hb)
    · exact hmaps

/-- One level: a key of the layer gets what the layer has under it, laid over what was there. -/
theorem find?_overlayFields (hn : (Assoc.keys layer).Nodup) (base : Value.Fields) (key : String) :
    Assoc.find? (overlayFields base layer) key =
      ((Assoc.find? layer key).map (overlay ((Assoc.find? base key).getD .null))).or
        (Assoc.find? base key) := by
  induction layer generalizing base with
  | nil => rw [overlayFields]; rfl
  | cons e layer ih =>
    obtain ⟨key', v⟩ := e
    obtain ⟨hne, hn⟩ := List.nodup_cons.mp hn
    rw [overlayFields, ih hn, Assoc.find?_put, Assoc.find?, overlayAt_eq]
    by_cases hk : key' = key
    · subst hk
      simp [Assoc.find?_eq_none_iff.mpr hne]
    · simp [hk]

theorem mem_keys_overlayFields (hn : (Assoc.keys layer).Nodup) (base : Value.Fields)
    (key : String) :
    key ∈ Assoc.keys (overlayFields base layer) ↔ key ∈ Assoc.keys base ∨
    key ∈ Assoc.keys layer := by
  simp only [← Assoc.isSome_find?, find?_overlayFields hn, Option.isSome_or, Option.isSome_map,
    Bool.or_eq_true, or_comm]

end Overlay

/-! ### Paths -/

section Paths
variable {b l : Value} {key : String} {path stem : List String}

/-- Both values hold a map at the path. -/
def Both (b l : Value) (path : List String) : Prop :=
  ∃ fields fields', b.at? path = some (.map fields) ∧ l.at? path = some (.map fields')

/-- The longest stem of the path at which both values hold a map. -/
structure Meeting (b l : Value) (path stem : List String) : Prop where
  isPrefix : stem <+: path
  both : Both b l stem
  longest : ∀ stem', stem' <+: path → Both b l stem' → stem'.length ≤ stem.length

theorem Meeting.unique {stem' : List String} (h : Meeting b l path stem)
    (h' : Meeting b l path stem') : stem' = stem := by
  have hle := h.longest _ h'.isPrefix h'.both
  have hge := h'.longest _ h.isPrefix h.both
  exact (List.prefix_of_prefix_length_le h'.isPrefix h.isPrefix hle).eq_of_length
    (Nat.le_antisymm hle hge)

theorem both_nil : Both b l [] ↔ ∃ base layer, b = .map base ∧ l = .map layer := by
  simp only [Both, at?_nil, Option.some.injEq]

theorem both_cons : Both b l (key :: path) ↔ ∃ base layer v w, b = .map base ∧ l = .map layer ∧
    Assoc.find? base key = some v ∧ Assoc.find? layer key = some w ∧ Both v w path := by
  constructor
  · rintro ⟨fields, fields', hb, hl⟩
    obtain ⟨base, v, rfl, hv, hb⟩ := exists_map_of_at? hb
    obtain ⟨layer, w, rfl, hw, hl⟩ := exists_map_of_at? hl
    exact ⟨base, layer, v, w, rfl, rfl, hv, hw, fields, fields', hb, hl⟩
  · rintro ⟨base, layer, v, w, rfl, rfl, hv, hw, fields, fields', hb, hl⟩
    exact ⟨fields, fields', by rw [at?_map_cons, hv, Option.bind_some, hb],
      by rw [at?_map_cons, hw, Option.bind_some, hl]⟩

/-- Going down both values finds the paths at which both hold a map. -/
theorem meets_iff (hd : l.Distinct) {n : Nat} :
    meets n b l = true ↔ ∃ path, path.length = n ∧ Both b l path := by
  induction n generalizing b l with
  | zero =>
    simp only [List.length_eq_zero_iff, exists_eq_left, both_nil]
    cases b <;> cases l <;> simp [meets]
  | succ n ih =>
    by_cases hmaps : ∃ base layer, b = .map base ∧ l = .map layer
    · obtain ⟨base, layer, rfl, rfl⟩ := hmaps
      simp only [meets, List.any_eq_true, Option.any_eq_true]
      constructor
      · rintro ⟨⟨key, w⟩, he, v, hv, hmeets⟩
        have hw := Assoc.find?_of_mem hd.nodup he
        obtain ⟨path, rfl, hboth⟩ := (ih (hd.find? hw)).mp hmeets
        exact ⟨key :: path, rfl, both_cons.mpr ⟨base, layer, v, w, rfl, rfl, hv, hw, hboth⟩⟩
      · rintro ⟨path, hlength, hboth⟩
        obtain ⟨key, path, rfl⟩ := List.exists_cons_of_length_eq_add_one hlength
        obtain ⟨_, _, v, w, ⟨⟩, ⟨⟩, hv, hw, hboth⟩ := both_cons.mp hboth
        exact ⟨(key, w), Assoc.mem_of_find? hw, v, hv, (ih (hd.find? hw)).mpr
          ⟨path, Nat.succ.inj hlength, hboth⟩⟩
    · have hmeets : meets (n + 1) b l = false := by
        cases b <;> cases l <;> first | rfl | simp at hmaps
      refine iff_of_false (by simp [hmeets]) ?_
      rintro ⟨path, hlength, hboth⟩
      obtain ⟨key, path, rfl⟩ := List.exists_cons_of_length_eq_add_one hlength
      obtain ⟨base, layer, -, -, hb, hl, -⟩ := both_cons.mp hboth
      exact hmaps ⟨base, layer, hb, hl⟩

/-- Two maps meet on every path. -/
theorem exists_meeting (base layer : Value.Fields) (path : List String) :
    ∃ stem, Meeting (.map base) (.map layer) path stem := by
  classical
  let P (n : Nat) : Prop := Both (.map base) (.map layer) (path.take n)
  have hroot : P 0 := ⟨base, layer, at?_nil, at?_nil⟩
  refine ⟨path.take (Nat.findGreatest P path.length), List.take_prefix _ _,
    Nat.findGreatest_spec (Nat.zero_le path.length) hroot, fun stem hstem hboth => ?_⟩
  rw [List.length_take_of_le (Nat.findGreatest_le _)]
  refine Nat.le_findGreatest hstem.length_le ?_
  show Both _ _ (path.take stem.length)
  rwa [← List.prefix_iff_eq_take.mp hstem]

theorem Meeting.parts (h : Meeting b l (stem ++ key :: path) stem) :
    ¬ Both b l (stem ++ [key]) := by
  intro hboth
  have hlong := h.longest (stem ++ [key]) ⟨path, by simp⟩ hboth
  rw [List.length_append, List.length_singleton] at hlong
  omega

/-- Where both have a map the overlay has one, and it is the one laid over the other. -/
theorem at?_overlay {fields fields' : Value.Fields} (hd : l.Distinct)
    (hb : b.at? path = some (.map fields)) (hl : l.at? path = some (.map fields')) :
    (overlay b l).at? path = some (.map (overlayFields fields fields')) := by
  induction path generalizing b l with
  | nil =>
    cases at?_nil.symm.trans hb
    cases at?_nil.symm.trans hl
    rw [overlay_map, at?_nil]
  | cons key path ih =>
    obtain ⟨base, b', rfl, hbase, hb'⟩ := exists_map_of_at? hb
    obtain ⟨layer, l', rfl, hlayer, hl'⟩ := exists_map_of_at? hl
    rw [overlay_map, at?_map_cons, find?_overlayFields hd.nodup, hbase, hlayer, Option.map_some,
      Option.some_or,
      Option.bind_some, Option.getD_some]
    exact ih (hd.find? hlayer) hb' hl'

/-- Past where both have a map, the one of the layer that has the next key has the say, and
otherwise the base. -/
theorem at?_overlay_append (hd : l.Distinct) (hboth : Both b l stem)
    (hparts : ¬ Both b l (stem ++ [key])) (path : List String) :
    (overlay b l).at? (stem ++ key :: path) =
      if (l.at? (stem ++ [key])).isSome then l.at? (stem ++ key :: path) else b.at?
        (stem ++ key :: path) := by
  obtain ⟨fields, fields', hb, hl⟩ := hboth
  have hwhole (v : Value) (hv : Assoc.find? fields' key = some v) :
      overlay ((Assoc.find? fields key).getD .null) v = v := by
    refine overlay_whole fun f g hf hg => hparts ⟨f, g, ?_, ?_⟩
    · rw [at?_append, hb, Option.bind_some, at?_map_cons, eq_some_of_getD hf]
      rfl
    · rw [at?_append, hl, Option.bind_some, at?_map_cons, hv, hg]
      rfl
  simp only [at?_append, at?_overlay hd hb hl, hb, hl, Option.bind_some, at?_map_cons,
    find?_overlayFields (hd.at hl).nodup]
  cases hv : Assoc.find? fields' key with
  | none => simp
  | some v => simp [hwhole v hv]

/-- What the layer holds replaces what the base holds, unless both are maps. -/
theorem at?_overlay_whole {base layer : Value.Fields} {v : Value} (hd : (Value.map layer).Distinct)
    (hv : (Value.map layer).at? path = some v) (hboth : ¬ Both (.map base) (.map layer) path) :
    (overlay (.map base) (.map layer)).at? path = some v := by
  obtain ⟨stem, hm⟩ := exists_meeting base layer path
  obtain ⟨rest, rfl⟩ := hm.isPrefix
  cases rest with
  | nil => exact absurd hm.both (List.append_nil stem ▸ hboth)
  | cons key rest =>
    have hkey : ((Value.map layer).at? (stem ++ [key])).isSome = true := by
      rw [List.append_cons, at?_append] at hv
      obtain ⟨w, hw, -⟩ := Option.bind_eq_some_iff.mp hv
      rw [hw]
      rfl
    rw [at?_overlay_append hd hm.both hm.parts, if_pos hkey, hv]

end Paths

/-! ### Keys -/

theorem nodup_overlayFields {base : Value.Fields} (hn : (Assoc.keys base).Nodup)
    (layer : Value.Fields) :
    (Assoc.keys (overlayFields base layer)).Nodup := by
  induction layer generalizing base with
  | nil => rwa [overlayFields]
  | cons e layer ih =>
    rw [overlayFields]
    exact ih (Assoc.nodup_put hn _ _)

theorem distinct_overlay {b l : Value} (hb : b.Distinct) (hl : l.Distinct) :
    (overlay b l).Distinct := by
  intro path fields h
  induction path generalizing b l with
  | nil =>
    rcases maps_or_whole b l with ⟨base, layer, rfl, rfl⟩ | hwhole
    · rw [overlay_map] at h
      cases at?_nil.symm.trans h
      exact nodup_overlayFields hb.nodup layer
    · exact hl [] fields (hwhole ▸ h)
  | cons key path ih =>
    rcases maps_or_whole b l with ⟨base, layer, rfl, rfl⟩ | hwhole
    · rw [overlay_map, at?_map_cons, find?_overlayFields hl.nodup] at h
      cases hv : Assoc.find? layer key with
      | none =>
        rw [hv, Option.map_none, Option.none_or] at h
        exact hb (key :: path) fields h
      | some v =>
        rw [hv, Option.map_some, Option.some_or] at h
        refine ih ?_ (hl.find? hv) h
        cases hbase : Assoc.find? base key with
        | none => exact distinct_of_not_map nofun
        | some b' => exact hb.find? hbase
    · exact hl (key :: path) fields (hwhole ▸ h)

/-! ### Laying the same over again -/

section Again
variable {m layer : Value.Fields}

/-- Nothing changes where every value that is laid over is absorbed by what is there. -/
theorem overlayFields_absorbed
    (h : ∀ e ∈ layer, ∃ v, Assoc.find? m e.1 = some v ∧ overlay v e.2 = v) :
    overlayFields m layer = m := by
  induction layer with
  | nil => rw [overlayFields]
  | cons e layer ih =>
    obtain ⟨key, l⟩ := e
    obtain ⟨v, hv, habsorbed⟩ := h _ List.mem_cons_self
    rw [overlayFields, overlayAt_eq, hv, Option.getD_some, habsorbed, Assoc.put_of_find? hv]
    exact ih fun e he => h e (List.mem_cons_of_mem _ he)

/-- Under every key of the layer there is what it holds, laid over something. -/
theorem exists_overlay_map (hn : (Assoc.keys layer).Nodup) (b : Value) :
    ∃ m, overlay b (.map layer) = .map m ∧
    ∀ e ∈ layer, ∃ b', Assoc.find? m e.1 = some (overlay b' e.2) := by
  by_cases hb : ∃ base, b = .map base
  · obtain ⟨base, rfl⟩ := hb
    refine ⟨_, overlay_map base layer, fun e he => ⟨(Assoc.find? base e.1).getD .null, ?_⟩⟩
    rw [find?_overlayFields hn, Assoc.find?_of_mem hn he, Option.map_some, Option.some_or]
  · refine ⟨layer, overlay_whole fun fields _ hfields => absurd ⟨fields, hfields⟩ hb,
      fun e he => ⟨.null, ?_⟩⟩
    have hnull : overlay .null e.2 = e.2 := overlay_whole nofun
    rw [hnull]
    exact Assoc.find?_of_mem hn he

/-- An overlay absorbs its layer. -/
theorem overlay_absorbs {l : Value} (hd : l.Distinct) (b : Value) :
    overlay (overlay b l) l = overlay b l := by
  by_cases hmap : ∃ layer, l = .map layer
  · obtain ⟨layer, hl⟩ := hmap
    rw [hl] at hd ⊢
    obtain ⟨m, hm, hheld⟩ := exists_overlay_map hd.nodup b
    have habsorbed : overlayFields m layer = m := by
      refine overlayFields_absorbed fun e he => ?_
      obtain ⟨b', hb'⟩ := hheld e he
      exact ⟨_, hb', overlay_absorbs (hd.find? (Assoc.find?_of_mem hd.nodup he)) b'⟩
    rw [hm, overlay_map, habsorbed]
  · have hwhole (b : Value) : overlay b l = l := overlay_whole fun _ fields' _ hl =>
      hmap ⟨fields', hl⟩
    rw [hwhole, hwhole]
termination_by sizeOf l
decreasing_by
  obtain ⟨key, v⟩ := e
  have hlt := List.sizeOf_lt_of_mem he
  simp only [hl, Prod.mk.sizeOf_spec, Value.map.sizeOf_spec] at hlt ⊢
  omega

end Again

/-- What `m` holds at every path when `l` is laid over `b`. -/
structure Overlaid (b l m : Value) : Prop where
  meeting : ∀ path, ∃! stem, Meeting b l path stem
  /-- At a path that is its own stem there is a map with the keys of both. -/
  both : ∀ path, Meeting b l path path → ∃ fields fields' merged, b.at? path = some (.map fields) ∧
    l.at? path = some (.map fields') ∧ m.at? path = some (.map merged) ∧
    ∀ key, key ∈ Assoc.keys merged ↔ key ∈ Assoc.keys fields ∨ key ∈ Assoc.keys fields'
  /-- The layer has the next key after the stem. -/
  layer : ∀ stem key path, Meeting b l (stem ++ key :: path) stem →
    (l.at? (stem ++ [key])).isSome = true →
    m.at? (stem ++ key :: path) = l.at? (stem ++ key :: path)
  /-- The layer does not have it. -/
  base : ∀ stem key path, Meeting b l (stem ++ key :: path) stem →
    (l.at? (stem ++ [key])).isSome = false →
    m.at? (stem ++ key :: path) = b.at? (stem ++ key :: path)
  /-- Unless there are two maps, what the layer holds is all that is left. -/
  whole : ∀ path v, l.at? path = some v → ¬ Both b l path → m.at? path = some v

/-- Settings that lie over others are told path by path, and lying there once more they change
nothing. -/
theorem overlay_pathwise {layer : Value.Fields} (hd : (Value.map layer).Distinct)
    (base : Value.Fields) :
    Overlaid (.map base) (.map layer) (.map (overlayFields base layer)) ∧
      overlayFields (overlayFields base layer) layer = overlayFields base layer := by
  rw [← overlay_map]
  refine ⟨⟨fun path => ?_, fun path hm => ?_, fun stem key path hm hl => ?_,
    fun stem key path hm hl => ?_,
    fun path v hv hboth => at?_overlay_whole hd hv hboth⟩, ?_⟩
  · obtain ⟨stem, hm⟩ := exists_meeting base layer path
    exact ⟨stem, hm, fun _ hm' => hm.unique hm'⟩
  · obtain ⟨fields, fields', hb, hl⟩ := hm.both
    exact ⟨fields, fields', _, hb, hl, at?_overlay hd hb hl, mem_keys_overlayFields
      (hd.at hl).nodup fields⟩
  · rw [at?_overlay_append hd hm.both hm.parts, if_pos hl]
  · rw [at?_overlay_append hd hm.both hm.parts, if_neg (Bool.eq_false_iff.mp hl)]
  · have habsorbs := overlay_absorbs hd (.map base)
    rw [overlay_map, overlay_map] at habsorbs
    exact Value.map.inj habsorbs

/-- A map over a map, a list over a list, and a list over a map. -/
theorem overlay_pathwise_nested :
    let base : Value.Fields :=
  [("etcd", .map [("host", .text "a"), ("tls", .map [("enabled", .bool false)])]),
      ("ports", .list [.int 1, .int 2]), ("log", .map [("level", .text "INFO")])]
    let layer : Value.Fields :=
  [("etcd", .map [("tls", .map [("enabled", .bool true)])]), ("ports", .list [.int 3]),
      ("log", .list [])]
    let merged : Value.Fields :=
  [("etcd", .map [("host", .text "a"), ("tls", .map [("enabled", .bool true)])]),
      ("ports", .list [.int 3]), ("log", .list [])]
    (Value.map layer).Distinct ∧ overlayFields base layer = merged ∧
      Overlaid (.map base) (.map layer) (.map (overlayFields base layer)) ∧
      overlayFields merged layer = merged := by
  intro base layer merged
  have htls : (Value.map [("tls", .map [("enabled", .bool true)])]).Distinct :=
    distinct_map (by decide) (List.forall_mem_singleton.mpr (distinct_map (by decide)
      (List.forall_mem_singleton.mpr (distinct_of_not_map nofun))))
  have hd : (Value.map layer).Distinct :=
    distinct_map (by decide)
      (List.forall_mem_cons.mpr ⟨htls, List.forall_mem_cons.mpr ⟨distinct_of_not_map nofun,
      List.forall_mem_singleton.mpr (distinct_of_not_map nofun)⟩⟩)
  have hmerged : overlayFields base layer = merged := rfl
  obtain ⟨hoverlaid, hagain⟩ := overlay_pathwise hd base
  exact ⟨hd, hmerged, hoverlaid, hmerged ▸ hagain⟩

end Leasehold.Config

import Leasehold.Json.Writer

/-!
# Flat documents read back as they were written

`read_render`: a document that is a map of texts, integers of at most `maxDigits` digits and nulls
reads back as it was written. Texts go through UTF-16 code units (`units`): a character outside the
basic plane is written as two escapes, and no other character has a surrogate's number, so that
joining the escapes of a text gives its characters back (`joinSurrogates_units`). With an integer of
more digits the document does not read at all (`read_render_long`).
-/

namespace Leasehold

namespace Text

theorem hexValue?_hexDigit : ∀ n, n < 16 → hexValue? (hexDigit n) = some n := by decide

theorem hexDigit_ne : ∀ n, n < 16 → hexDigit n ≠ '"' ∧ hexDigit n ≠ '\\' := by decide

theorem hex_ne {width n : Nat} {c : Char} (h : c ∈ hex width n) : c ≠ '"' ∧ c ≠ '\\' := by
  induction width generalizing n with
  | zero => simp [hex] at h
  | succ w ih =>
    rcases List.mem_append.mp h with h | h
    · exact ih h
    · rw [List.mem_singleton.mp h]; exact hexDigit_ne _ (Nat.mod_lt _ (by decide))

theorem ofHex?_hex {width n : Nat} (h : n < Nat.pow 16 width) : ofHex? (hex width n) = some n := by
  induction width generalizing n with
  | zero => have : n = 0 := by simpa using h
            subst this; rfl
  | succ w ih =>
    have hw : ofHex? (hex w (n / 16)) = some (n / 16) :=
      ih (by rw [Nat.pow_eq] at h ⊢; rw [Nat.pow_succ] at h; omega)
    have hd : hexValue? (hexDigit (n % 16)) = some (n % 16) :=
      hexValue?_hexDigit _ (Nat.mod_lt _ (by decide))
    rw [ofHex?] at hw ⊢
    simp only [hex, List.foldlM_append, hw, Option.bind_eq_bind, Option.bind_some,
      List.foldlM_cons, hd,
      Option.map_some, List.foldlM_nil]
    simp only [Option.pure_def, Option.some.injEq]
    omega

theorem charOrReplacement_toNat (c : Char) : charOrReplacement c.toNat = c := by
  have hv : c.toNat.isValidChar := c.valid
  rw [charOrReplacement, char?, dif_pos hv]
  rfl

theorem toNat_lt (c : Char) : c.toNat < 0x110000 := by
  have hv : c.toNat < 0xd800 ∨ 0xdfff < c.toNat ∧ c.toNat < 0x110000 := c.valid
  omega

theorem not_surrogate (c : Char) :
    isHighSurrogate c.toNat = false ∧ isLowSurrogate c.toNat = false := by
  have hv : c.toNat < 0xd800 ∨ 0xdfff < c.toNat ∧ c.toNat < 0x110000 := c.valid
  simp only [isHighSurrogate, isLowSurrogate, Bool.and_eq_false_iff, decide_eq_false_iff_not]
  omega

end Text

namespace Json

/-- The high surrogate of a code point outside the basic plane. -/
def highUnit (n : Nat) : Nat := 0xd800 + (n - 0x10000) / 0x400

/-- The low surrogate of a code point outside the basic plane. -/
def lowUnit (n : Nat) : Nat := 0xdc00 + (n - 0x10000) % 0x400

/-- The UTF-16 code units of a character. -/
def units (c : Char) : List Nat :=
  if c.toNat < 0x10000 then [c.toNat] else [highUnit c.toNat, lowUnit c.toNat]

theorem ofSurrogates_units {n : Nat} (h : 0x10000 ≤ n) :
    Text.ofSurrogates (highUnit n) (lowUnit n) = n := by
  unfold Text.ofSurrogates highUnit lowUnit; omega

theorem isHighSurrogate_highUnit {n : Nat} (h : n < 0x110000) :
    Text.isHighSurrogate (highUnit n) = true := by
  unfold Text.isHighSurrogate highUnit
  rw [Bool.and_eq_true, decide_eq_true_eq, decide_eq_true_eq]; omega

theorem isLowSurrogate_lowUnit (n : Nat) : Text.isLowSurrogate (lowUnit n) = true := by
  unfold Text.isLowSurrogate lowUnit
  rw [Bool.and_eq_true, decide_eq_true_eq, decide_eq_true_eq]; omega

/-- A character of the basic plane is no surrogate, so it never pairs with what follows it. -/
theorem joinSurrogates_cons (c : Char) (us : List Nat) :
    Text.joinSurrogates (c.toNat :: us) = c :: Text.joinSurrogates us := by
  cases us with
  | nil => simp [Text.joinSurrogates, Text.charOrReplacement_toNat]
  | cons v us =>
    simp only [Text.joinSurrogates, (Text.not_surrogate c).1, Bool.false_and,
      Bool.false_eq_true, if_false,
      Text.charOrReplacement_toNat]

theorem joinSurrogates_pair {c : Char} (h : 0x10000 ≤ c.toNat) (us : List Nat) :
    Text.joinSurrogates (highUnit c.toNat :: lowUnit c.toNat :: us) =
      c :: Text.joinSurrogates us := by
  simp only [Text.joinSurrogates, isHighSurrogate_highUnit (Text.toNat_lt c),
    isLowSurrogate_lowUnit, Bool.and_self,
    if_true, ofSurrogates_units h, Text.charOrReplacement_toNat]

theorem joinSurrogates_units (cs : List Char) : Text.joinSurrogates (cs.flatMap units) = cs := by
  induction cs with
  | nil => rfl
  | cons c cs ih =>
    simp only [List.flatMap_cons, units]
    split
    · rw [List.singleton_append, joinSurrogates_cons, ih]
    · rw [List.cons_append, List.singleton_append, joinSurrogates_pair (by omega), ih]

/-! ### Texts -/

theorem hex_four (n : Nat) : ∃ a b c d, Text.hex 4 n = [a, b, c, d] := by
  match h : Text.hex 4 n, Text.length_hex 4 n with
  | [a, b, c, d], _ => exact ⟨a, b, c, d, rfl⟩

theorem textUnits_unitEscape {n : Nat} (h : n < 0x10000) (r : List Char) (acc : List Nat) :
    textUnits (unitEscape n ++ r) acc = textUnits r (n :: acc) := by
  obtain ⟨a, b, c, d, hx⟩ := hex_four n
  have hn : Text.ofHex? [a, b, c, d] = some n := by rw [← hx]; exact Text.ofHex?_hex h
  simp only [unitEscape, hx, List.cons_append, List.nil_append, textUnits, hn]

theorem textUnits_escape (c : Char) (r : List Char) (acc : List Nat) :
    textUnits (escape c ++ r) acc = textUnits r ((units c).reverse ++ acc) := by
  have named {n : Nat} (hn : c.toNat = n) (hlt : n < 0x10000) : (units c).reverse ++ acc =
    n :: acc := by
    simp [units, hn, hlt]
  simp only [escape]
  split
  · subst c; rfl
  split
  · subst c; rfl
  split
  · rename_i h; rw [named h (by decide)]; simp [textUnits, escaped?]
  split
  · rename_i h; rw [named h (by decide)]; simp [textUnits, escaped?]
  split
  · rename_i h; rw [named h (by decide)]; simp [textUnits, escaped?]
  split
  · rename_i h; rw [named h (by decide)]; simp [textUnits, escaped?]
  split
  · rename_i h; rw [named h (by decide)]; simp [textUnits, escaped?]
  split
  · rename_i hq hb _ _ _ _ _ hp
    simp only [Bool.and_eq_true, decide_eq_true_eq] at hp
    rw [named rfl (by omega), List.singleton_append, textUnits.eq_def]
    have hlow : ¬ c.toNat < 0x20 := by omega
    split
    · rename_i heq; cases heq
    · rename_i heq; cases heq; exact absurd rfl hq
    · rename_i heq; cases heq; exact absurd rfl hb
    · rename_i heq; cases heq; exact absurd rfl hb
    · rename_i heq
      cases heq
      simp only [hlow, hb, decide_false, Bool.or_self, Bool.false_eq_true, if_false]
  split
  · rename_i h; rw [named rfl h, textUnits_unitEscape h]
  · rename_i h
    have hv := Text.toNat_lt c
    rw [List.append_assoc, textUnits_unitEscape (by omega), textUnits_unitEscape (by omega)]
    simp [units, h, highUnit, lowUnit]

theorem textUnits_flatMap (cs r : List Char) (acc : List Nat) :
    textUnits (cs.flatMap escape ++ '"' :: r) acc = some (acc.reverse ++ cs.flatMap units, r) := by
  induction cs generalizing acc with
  | nil => simp [textUnits]
  | cons c cs ih => simp [textUnits_escape, ih, List.append_assoc]

/-- The characters of a text after its opening quote. -/
def body (s : String) : List Char := s.toList.flatMap escape ++ ['"']

theorem toList_renderText (s : String) : (renderText s).toList = '"' :: body s := by
  simp [renderText, body]

theorem text_body (s : String) (r : List Char) : text (body s ++ r) = some (s, r) := by
  simp [text, body, textUnits_flatMap, joinSurrogates_units]

/-! ### Numbers -/

theorem isDigit_eq (c : Char) : isDigit c = c.isDigit := by
  simp only [isDigit, Text.asciiDigit?, Char.isDigit, Char.le_def]
  split <;> simp_all

theorem isDigit_of_mem {n : Nat} {c : Char} (h : c ∈ Nat.toDigits 10 n) : isDigit c = true := by
  rw [isDigit_eq]; exact Nat.isDigit_of_mem_toDigits (by decide) (by decide) h

theorem digitsValue_eq (cs : List Char) (h : ∀ c ∈ cs, isDigit c = true) (init : Nat) :
    cs.foldl (fun n c => 10 * n + (Text.asciiDigit? c).getD 0) init =
      Nat.ofDigitChars 10 cs init := by
  induction cs generalizing init with
  | nil => rfl
  | cons c cs ih =>
    have hc : Text.asciiDigit? c = some (c.toNat - '0'.toNat) := by
      have := h c (by simp)
      simp only [isDigit, Text.asciiDigit?] at this ⊢
      split at this <;> simp_all
    rw [List.foldl_cons, ih (fun d hd => h d (by simp [hd])), Nat.ofDigitChars_cons, hc]
    rfl

theorem digitsValue_toDigits (n : Nat) : digitsValue (Nat.toDigits 10 n) = n := by
  rw [digitsValue, digitsValue_eq _ fun _ => isDigit_of_mem, Nat.ofDigitChars_ten_toDigits]

/-- The first digit of a number is zero only when the number is. -/
theorem toDigits_cases (n : Nat) :
    Nat.toDigits 10 n = ['0'] ∨ ∃ c cs, Nat.toDigits 10 n = c :: cs ∧ c ≠ '0' := by
  induction n using Nat.strongRecOn with
  | _ n ih =>
    by_cases h : n < 10
    · rcases Nat.eq_zero_or_pos n with rfl | hp
      · exact .inl (Nat.toDigits_zero 10)
      · refine .inr ⟨n.digitChar, [], Nat.toDigits_of_lt_base h, ?_⟩
        have : ∀ m, m < 10 → 0 < m → Nat.digitChar m ≠ '0' := by decide
        exact this n h hp
    · rw [Nat.toDigits_of_base_le (by decide) (by omega)]
      rcases ih (n / 10) (by omega) with h0 | ⟨c, cs, hc, hne⟩
      · have : digitsValue (Nat.toDigits 10 (n / 10)) = 0 := by rw [h0]; rfl
        rw [digitsValue_toDigits] at this
        omega
      · exact .inr ⟨c, cs ++ [(n % 10).digitChar], by rw [hc]; rfl, hne⟩

/-- What follows a member inside a map. -/
def Ends (r : List Char) : Prop := ∃ c cs, r = c :: cs ∧ (c = ',' ∨ c = '\x7d')

theorem Ends.comma (cs : List Char) : Ends (',' :: cs) := ⟨_, _, rfl, .inl rfl⟩

theorem Ends.brace (cs : List Char) : Ends ('\x7d' :: cs) := ⟨_, _, rfl, .inr rfl⟩

theorem takeWhile_digits {n : Nat} {r : List Char} (hr : Ends r) :
    (Nat.toDigits 10 n ++ r).takeWhile isDigit = Nat.toDigits 10 n ∧
      (Nat.toDigits 10 n ++ r).dropWhile isDigit = r := by
  obtain ⟨c, cs, rfl, hc⟩ := hr
  have hd : isDigit c = false := by rcases hc with rfl | rfl <;> decide
  have h : ∀ c ∈ Nat.toDigits 10 n, isDigit c = true := fun _ => isDigit_of_mem
  rw [List.takeWhile_append_of_pos h, List.dropWhile_append_of_pos h]
  simp [hd]

theorem number_of_split {whole r : List Char} {n : Nat} (negative : Bool) (cs : List Char)
    (hr : Ends r) (hcs : (∃ q, cs = '0' :: q ∧ whole = ['0'] ∧ r = q) ∨
      ((∀ q, cs ≠ '0' :: q) ∧ cs.takeWhile isDigit = whole ∧ cs.dropWhile isDigit = r))
    (hne : whole ≠ []) (hn : digitsValue whole = n) :
    number negative cs = if maxDigits <
      whole.length then none else some (.int (if negative then -(n : Int) else n), r) := by
  obtain ⟨c, q, rfl, hc⟩ := hr
  unfold number
  rcases hcs with ⟨q', rfl, rfl, rfl⟩ | ⟨h0, hw, hd⟩
  · rcases hc with rfl | rfl <;> simp [hn, maxDigits]
  · split
    rename_i w rest heq
    have : w = whole ∧ rest = c :: q := by
      split at heq
      · exact absurd rfl (h0 _)
      · rw [hw, hd] at heq; exact ⟨(Prod.mk.inj heq).1.symm, (Prod.mk.inj heq).2.symm⟩
    obtain ⟨rfl, rfl⟩ := this
    rcases hc with rfl | rfl <;> simp [hne, hn]

theorem lt_length_toDigits {n d : Nat} (hd : 0 < d) :
    d < (Nat.toDigits 10 n).length ↔ Nat.pow 10 d ≤ n := by
  rw [← Nat.not_le, Nat.length_toDigits_le_iff (by decide) hd, Nat.not_lt]
  rfl

/-- Digits are read up to what ends a member, unless there are too many. -/
theorem number_toDigits (n : Nat) (negative : Bool) {r : List Char} (hr : Ends r) :
    number negative (Nat.toDigits 10 n ++ r) =
      if Nat.pow 10 maxDigits ≤
        n then none else some (.int (if negative then -(n : Int) else n), r) := by
  have hsplit := @number_of_split (Nat.toDigits 10 n) r n negative (Nat.toDigits 10 n ++ r) hr
    (by
      rcases toDigits_cases n with h0 | ⟨c, cs, hc, hne⟩
      · exact .inl ⟨r, by rw [h0]; rfl, h0, rfl⟩
      · refine .inr ⟨fun q hq => hne ?_, takeWhile_digits hr⟩
        rw [hc] at hq
        exact (List.cons.inj hq).1)
    Nat.toDigits_ne_nil (digitsValue_toDigits n)
  rw [hsplit]
  simp only [lt_length_toDigits (by decide : 0 < maxDigits)]

/-! ### Values and maps -/

/-- The values that a flat document holds. -/
inductive Flat : Value → Prop
  | null : Flat .null
  | text (s : String) : Flat (.text s)
  | int (n : Int) (h : n.natAbs < Nat.pow 10 maxDigits) : Flat (.int n)

theorem isDigit_ne {c d : Char} (hc : isDigit c = true) (hd : isDigit d = false) : c ≠ d := by
  rintro rfl; rw [hc] at hd; cases hd

theorem value_digit {c : Char} (hc : isDigit c = true) (cs : List Char) (fuel : Nat) :
    value (fuel + 1) (c :: cs) = number false (c :: cs) := by
  rw [value]
  all_goals intro r h; exact isDigit_ne hc (by decide) (List.cons.inj h).1

theorem value_minus {c : Char} (hc : isDigit c = true) (cs : List Char) (fuel : Nat) :
    value (fuel + 1) ('-' :: c :: cs) = number true (c :: cs) := by
  rw [value]
  intro r h; exact isDigit_ne hc (by decide) (List.cons.inj h).1

theorem toDigits_head (n : Nat) : ∃ c cs, Nat.toDigits 10 n = c :: cs ∧ isDigit c = true := by
  match hm : Nat.toDigits 10 n with
  | [] => exact absurd hm Nat.toDigits_ne_nil
  | c :: cs => exact ⟨c, cs, rfl, isDigit_of_mem (n := n) (by rw [hm]; simp)⟩

theorem value_int (n : Int) {r : List Char} (hr : Ends r) (fuel : Nat) :
    value (fuel + 1) ((render (.int n)).toList ++ r) = if Nat.pow 10 maxDigits ≤
      n.natAbs then none else some (.int n, r) := by
  match n with
  | .ofNat m =>
    obtain ⟨c, cs, hm, hc⟩ := toDigits_head m
    have := number_toDigits m false hr
    simp only [render, Int.toString_eq_repr, Int.repr, Nat.toList_repr]
    rw [hm] at this ⊢
    rw [List.cons_append, value_digit hc, ← List.cons_append, this]
    rfl
  | .negSucc m =>
    obtain ⟨c, cs, hm, hc⟩ := toDigits_head (m + 1)
    have := number_toDigits (m + 1) true hr
    simp only [render, Int.toString_eq_repr, Int.repr, String.toList_append, Nat.toList_repr]
    rw [hm] at this ⊢
    show value (fuel + 1) ('-' :: c :: (cs ++ r)) = _
    rw [value_minus hc, ← List.cons_append, this]
    rfl

theorem value_render {v : Value} (hv : Flat v) {r : List Char} (hr : Ends r) (fuel : Nat) :
    value (fuel + 1) ((render v).toList ++ r) = some (v, r) := by
  cases hv with
  | null => simp [render, value, word?]
  | text s => simp [render, toList_renderText, value, text_body]
  | int n h => rw [value_int n hr, if_neg (Nat.not_le.mpr h)]

theorem dropWhile_cons {c : Char} (h : isBlank c = false) (cs : List Char) :
    (c :: cs).dropWhile isBlank = c :: cs := by
  simp [h]

theorem dropWhile_int (n : Int) (r : List Char) :
    ((render (.int n)).toList ++ r).dropWhile isBlank = (render (.int n)).toList ++ r := by
  match n with
  | .ofNat m =>
    obtain ⟨c, cs, hm, hc⟩ := toDigits_head m
    have hblank : c ≠ ' ' ∧ c ≠ '\t' ∧ c ≠ '\n' ∧ c ≠ '\r' :=
      ⟨isDigit_ne hc (by decide), isDigit_ne hc (by decide), isDigit_ne hc (by decide),
        isDigit_ne hc (by decide)⟩
    simp only [render, Int.toString_eq_repr, Int.repr, Nat.toList_repr, hm]
    exact dropWhile_cons (by simp [isBlank, hblank]) _
  | .negSucc m =>
    simp only [render, Int.toString_eq_repr, Int.repr, String.toList_append]
    exact dropWhile_cons (by decide) _

theorem dropWhile_render {v : Value} (hv : Flat v) (r : List Char) :
    ((render v).toList ++ r).dropWhile isBlank = (render v).toList ++ r := by
  cases hv with
  | null => exact dropWhile_cons (by decide) _
  | text s => rw [render, toList_renderText]; exact dropWhile_cons (by decide) _
  | int n h => exact dropWhile_int n r

/-- The characters of the members of a map. -/
def memberChars (fields : Value.Fields) :
    List Char := (", ".intercalate (renderFields fields)).toList

theorem memberChars_single (k : String) (v : Value) :
    memberChars [(k, v)] = '"' :: (body k ++ ':' :: ' ' :: (render v).toList) := by
  simp [memberChars, renderFields, toList_renderText]

theorem memberChars_cons (k : String) (v : Value) (e : String × Value) (fields : Value.Fields) :
    memberChars ((k, v) :: e :: fields) =
      '"' :: (body k ++ ':' :: ' ' ::
        ((render v).toList ++ ',' :: ' ' :: memberChars (e :: fields))) := by
  obtain ⟨k', v'⟩ := e
  simp [memberChars, renderFields, toList_renderText]

theorem memberChars_head (e : String × Value) (fields : Value.Fields) :
    ∃ cs, memberChars (e :: fields) = '"' :: cs := by
  obtain ⟨k, v⟩ := e
  cases fields with
  | nil => exact ⟨_, memberChars_single k v⟩
  | cons e fields => exact ⟨_, memberChars_cons k v e fields⟩

theorem dropWhile_value {v : Value} (hv : Flat v) (r : List Char) :
    (' ' :: ((render v).toList ++ r)).dropWhile isBlank = (render v).toList ++ r := by
  rw [List.dropWhile_cons_of_pos (by decide), dropWhile_render hv]

theorem members_last (k : String) {v : Value} (hv : Flat v) {cs r : List Char} (fuel : Nat)
    (hcs : cs.dropWhile isBlank =
      '"' :: (body k ++ ':' :: ' ' :: ((render v).toList ++ '\x7d' :: r))) :
    members (fuel + 2) cs = some ([(k, v)], r) := by
  rw [members, hcs]
  simp only [Option.bind_eq_bind, text_body, Option.bind_some]
  rw [List.dropWhile_cons_of_neg (by decide)]
  simp only [dropWhile_value hv, value_render hv (Ends.brace r), Option.bind_some]
  rw [List.dropWhile_cons_of_neg (by decide)]
  rfl

theorem members_member (k : String) {v : Value} (hv : Flat v) {cs r : List Char} (fuel : Nat)
    (hcs : cs.dropWhile isBlank =
      '"' :: (body k ++ ':' :: ' ' :: ((render v).toList ++ ',' :: r))) :
    members (fuel + 2) cs = (members (fuel + 1) r).map fun (rest, r) => ((k, v) :: rest, r) := by
  rw [members, hcs]
  simp only [Option.bind_eq_bind, text_body, Option.bind_some]
  rw [List.dropWhile_cons_of_neg (by decide)]
  simp only [dropWhile_value hv, value_render hv (Ends.comma r), Option.bind_some]
  rw [List.dropWhile_cons_of_neg (by decide)]
  simp only
  cases members (fuel + 1) r <;> rfl

theorem members_render {fields : Value.Fields} (hne : fields ≠ [])
    (hv : ∀ e ∈ fields, Flat e.2) (fuel : Nat) {cs r : List Char}
    (hcs : cs.dropWhile isBlank = memberChars fields ++ '\x7d' :: r) :
    members (fuel + fields.length + 1) cs = some (fields, r) := by
  induction fields generalizing cs with
  | nil => exact absurd rfl hne
  | cons e fields ih =>
    obtain ⟨k, v⟩ := e
    have hkv : Flat v := hv (k, v) (by simp)
    cases fields with
    | nil =>
      rw [memberChars_single] at hcs
      exact members_last k hkv fuel (by rw [hcs]; simp)
    | cons e fields =>
      rw [memberChars_cons] at hcs
      have hrest :=
        @ih (by simp) (fun e he => hv e (by simp [he]))
          (' ' :: (memberChars (e :: fields) ++ '\x7d' :: r)) (by
        obtain ⟨q, hq⟩ := memberChars_head e fields
        rw [List.dropWhile_cons_of_pos (by decide), hq, List.cons_append, List.dropWhile_cons_of_neg
          (by decide)])
      have := @members_member k v hkv cs (' ' :: (memberChars (e :: fields) ++ '\x7d' :: r))
        (fuel + (e :: fields).length) (by rw [hcs]; simp)
      rw [hrest] at this
      exact this

/-! ### Nesting

A flat map nests one deep: brackets inside texts do not count, and the escapes of a text neither end
it nor hide its end. -/

theorem nesting_plain {c : Char} (h : c ≠ '"' ∧ c ≠ '\\') (d m : Nat) (r : List Char) :
    nesting true d m (c :: r) = nesting true d m r := by
  rw [nesting.eq_def]
  split <;> simp_all

theorem nesting_hex (width n d m : Nat) (r : List Char) :
    nesting true d m (Text.hex width n ++ r) = nesting true d m r := by
  have (cs : List Char) (h : ∀ c ∈ cs, c ≠ '"' ∧ c ≠ '\\') : nesting true d m (cs ++ r) =
    nesting true d m r := by
    induction cs with
    | nil => rfl
    | cons c cs ih =>
      rw [List.cons_append, nesting_plain (h c (by simp)), ih fun c hc => h c (by simp [hc])]
  exact this _ fun _ => Text.hex_ne

theorem nesting_escape (c : Char) (d m : Nat) (r : List Char) :
    nesting true d m (escape c ++ r) = nesting true d m r := by
  have unit (n : Nat) (r : List Char) : nesting true d m (unitEscape n ++ r) =
    nesting true d m r := by
    rw [unitEscape, List.cons_append, List.cons_append, nesting, nesting_hex]
  simp only [escape]
  split
  · simp [nesting]
  split
  · simp [nesting]
  split
  · simp [nesting]
  split
  · simp [nesting]
  split
  · simp [nesting]
  split
  · simp [nesting]
  split
  · simp [nesting]
  split
  · rename_i hq hb _ _ _ _ _ _
    exact nesting_plain ⟨hq, hb⟩ d m r
  split
  · exact unit _ r
  · rw [List.append_assoc, unit, unit]

theorem nesting_text (s : String) (d m : Nat) (r : List Char) :
    nesting false d m ('"' :: (body s ++ r)) = nesting false d m r := by
  have (cs : List Char) : nesting true d m (cs.flatMap escape ++ '"' :: r) =
    nesting false d m r := by
    induction cs with
    | nil => simp [nesting]
    | cons c cs ih => rw [List.flatMap_cons, List.append_assoc, nesting_escape, ih]
  simpa [nesting, body] using this s.toList

theorem nesting_quiet {c : Char}
    (h : c ≠ '[' ∧ c ≠ '\x7b' ∧ c ≠ ']' ∧ c ≠ '\x7d' ∧ c ≠ '"') (d m : Nat) (r : List Char) :
    nesting false d m (c :: r) = nesting false d m r := by
  simp [nesting, h]

theorem nesting_toDigits (n d m : Nat) (r : List Char) :
    nesting false d m (Nat.toDigits 10 n ++ r) = nesting false d m r := by
  have (cs : List Char) (h : ∀ c ∈ cs, isDigit c = true) : nesting false d m (cs ++ r) =
    nesting false d m r := by
    induction cs with
    | nil => rfl
    | cons c cs ih =>
      have hc := h c (by simp)
      rw [List.cons_append,
        nesting_quiet ⟨isDigit_ne hc (by decide), isDigit_ne hc (by decide),
          isDigit_ne hc (by decide),
        isDigit_ne hc (by decide), isDigit_ne hc (by decide)⟩, ih fun c hc => h c (by simp [hc])]
  exact this _ fun _ => isDigit_of_mem

theorem nesting_render {v : Value} (hv : Flat v) (d m : Nat) (r : List Char) :
    nesting false d m ((render v).toList ++ r) = nesting false d m r := by
  cases hv with
  | null => simp [render, nesting]
  | text s => rw [render, toList_renderText, List.cons_append, nesting_text]
  | int n h =>
    match n with
    | .ofNat k =>
      simp only [render, Int.toString_eq_repr, Int.repr, Nat.toList_repr]
      exact nesting_toDigits k d m r
    | .negSucc k =>
      simp only [render, Int.toString_eq_repr, Int.repr, String.toList_append, Nat.toList_repr,
        List.append_assoc]
      exact (nesting_quiet (by decide) d m _).trans (nesting_toDigits _ d m r)

theorem nesting_members {fields : Value.Fields} (hv : ∀ e ∈ fields, Flat e.2) (d m : Nat)
    (r : List Char) :
    nesting false d m (memberChars fields ++ r) = nesting false d m r := by
  induction fields with
  | nil => rfl
  | cons e fields ih =>
    obtain ⟨k, v⟩ := e
    have hkv : Flat v := hv (k, v) (by simp)
    cases fields with
    | nil =>
      rw [memberChars_single, List.cons_append, List.append_assoc, nesting_text, List.cons_append,
        List.cons_append,
        nesting_quiet (by decide), nesting_quiet (by decide), nesting_render hkv]
    | cons e fields =>
      rw [memberChars_cons, List.cons_append, List.append_assoc, nesting_text, List.cons_append,
        List.cons_append,
        nesting_quiet (by decide), nesting_quiet (by decide), List.append_assoc, nesting_render hkv,
        List.cons_append,
        List.cons_append, nesting_quiet (by decide), nesting_quiet (by decide), ih fun e he =>
          hv e (by simp [he])]

/-! ### Documents -/

theorem length_le_memberChars (fields : Value.Fields) :
    fields.length ≤ (memberChars fields).length := by
  induction fields with
  | nil => simp
  | cons e fields ih =>
    obtain ⟨k, v⟩ := e
    cases fields with
    | nil => simp [memberChars_single]
    | cons e fields =>
      simp only [memberChars_cons, List.length_cons, List.length_append] at ih ⊢; omega

theorem value_map (cs : List Char) (fuel : Nat) : value (fuel + 1) ('\x7b' :: '"' :: cs) =
    (members fuel ('"' :: cs)).map fun (fields, r) => (.map (Assoc.ofPairs fields), r) := by
  rw [value, List.dropWhile_cons_of_neg (by decide)]
  rfl

/-- A flat map reads back as it was written; of a repeated key the last value counts. -/
theorem read_render {fields : Value.Fields} (hne : fields ≠ []) (hv : ∀ e ∈ fields, Flat e.2) :
    read (render (.map fields)) = some (.map (Assoc.ofPairs fields)) := by
  have hchars : (render (.map fields)).toList = '\x7b' :: (memberChars fields ++ ['\x7d']) := by
    simp [render, memberChars]
  have hnest : nesting false 0 0 ('\x7b' :: (memberChars fields ++ ['\x7d'])) = 1 := by
    simp [nesting, nesting_members hv]
  obtain ⟨q, hq⟩ : ∃ q, memberChars fields = '"' :: q := by
    cases fields with
    | nil => exact absurd rfl hne
    | cons e fields => exact memberChars_head e fields
  have hdrop : (memberChars fields ++ ['\x7d']).dropWhile isBlank = memberChars fields ++
    ['\x7d'] := by
    rw [hq]; rfl
  have hlen := length_le_memberChars fields
  have hmembers := @members_render fields hne hv ((memberChars fields).length + 1 - fields.length)
    (memberChars fields ++ ['\x7d']) [] hdrop
  have hvalue : value ((memberChars fields).length + 3)
    ('\x7b' :: (memberChars fields ++ ['\x7d'])) =
      some (.map (Assoc.ofPairs fields), []) := by
    have hfuel : (memberChars fields).length + 2 =
        (memberChars fields).length + 1 - fields.length + fields.length + 1 := by omega
    rw [hq] at hmembers hfuel ⊢
    rw [List.cons_append, value_map, ← List.cons_append, hfuel, hmembers]
    rfl
  rw [read, hchars, hnest, List.dropWhile_cons_of_neg (by decide)]
  simp only [List.length_cons, List.length_append, List.length_nil, maxNesting]
  rw [hvalue]
  rfl

/-! ### Integers of too many digits -/

theorem members_stuck (k : String) {cs r : List Char} {fuel : Nat}
    (hcs : cs.dropWhile isBlank = '"' :: (body k ++ ':' :: r))
    (hv : value fuel (r.dropWhile isBlank) = none) : members (fuel + 1) cs = none := by
  rw [members, hcs]
  simp only [Option.bind_eq_bind, text_body, Option.bind_some]
  rw [List.dropWhile_cons_of_neg (by decide)]
  simp only [hv, Option.bind_none]

theorem members_long (k : String) {n : Int} (hn : Nat.pow 10 maxDigits ≤ n.natAbs)
    {cs r : List Char} (hr : Ends r) (fuel : Nat)
    (hcs : cs.dropWhile isBlank =
      '"' :: (body k ++ ':' :: ' ' :: ((render (.int n)).toList ++ r))) :
    members fuel cs = none := by
  match fuel with
  | 0 => rw [members]
  | fuel + 1 =>
    refine members_stuck k hcs ?_
    rw [List.dropWhile_cons_of_pos (by decide), dropWhile_int]
    match fuel with
    | 0 => rw [value]
    | fuel + 1 => rw [value_int n hr, if_pos hn]

theorem members_render_long {fields fields' : Value.Fields} (hv : ∀ e ∈ fields, Flat e.2)
    (k : String) {n : Int} (hn : Nat.pow 10 maxDigits ≤ n.natAbs) (fuel : Nat) {cs r : List Char}
    (hcs : cs.dropWhile isBlank = memberChars (fields ++ (k, .int n) :: fields') ++ '\x7d' :: r) :
    members fuel cs = none := by
  induction fields generalizing cs fuel with
  | nil =>
    rw [List.nil_append] at hcs
    cases fields' with
    | nil =>
      rw [memberChars_single] at hcs
      exact members_long k hn (Ends.brace r) fuel (by rw [hcs]; simp)
    | cons e fields' =>
      rw [memberChars_cons] at hcs
      exact members_long k hn (Ends.comma (' ' :: (memberChars (e :: fields') ++ '\x7d' :: r))) fuel
        (by rw [hcs]; simp)
  | cons e fields ih =>
    obtain ⟨k', v⟩ := e
    have hkv : Flat v := hv (k', v) (by simp)
    obtain ⟨e, fields'', htail⟩ : ∃ e fields'', fields ++ (k, .int n) :: fields' =
      e :: fields'' := by
      cases fields <;> exact ⟨_, _, rfl⟩
    obtain ⟨q, hq⟩ := memberChars_head e fields''
    rw [List.cons_append, htail, memberChars_cons, ← htail] at hcs
    have hrest (fuel : Nat) := @ih (fun e he => hv e (by simp [he])) fuel
      (' ' :: (memberChars (fields ++ (k, .int n) :: fields') ++ '\x7d' :: r)) (by
        rw [htail, hq, List.dropWhile_cons_of_pos (by decide), List.cons_append,
          List.dropWhile_cons_of_neg (by decide)])
    match fuel with
    | 0 => rw [members]
    | 1 =>
      exact members_stuck k' (by rw [hcs, List.cons_append, List.append_assoc]; rfl) (by rw [value])
    | fuel + 2 =>
      have hmember :=
        @members_member k' v hkv cs
          (' ' :: (memberChars (fields ++ (k, .int n) :: fields') ++ '\x7d' :: r))
        fuel (by rw [hcs]; simp)
      rw [hmember, hrest]
      rfl

/-- A map with an integer of too many digits cannot be read. -/
theorem read_render_long {fields fields' : Value.Fields} (hv : ∀ e ∈ fields, Flat e.2)
    (k : String) {n : Int} (hn : Nat.pow 10 maxDigits ≤ n.natAbs) :
    read (render (.map (fields ++ (k, .int n) :: fields'))) = none := by
  have hchars : (render (.map (fields ++ (k, .int n) :: fields'))).toList =
      '\x7b' :: (memberChars (fields ++ (k, .int n) :: fields') ++ ['\x7d']) := by
    simp [render, memberChars]
  obtain ⟨q, hq⟩ : ∃ q, memberChars (fields ++ (k, .int n) :: fields') = '"' :: q := by
    cases fields <;> exact memberChars_head _ _
  have hmembers (fuel : Nat) := @members_render_long fields fields' hv k n hn fuel
    (memberChars (fields ++ (k, .int n) :: fields') ++ ['\x7d']) [] (by rw [hq]; rfl)
  rw [hq, List.cons_append] at hmembers
  rw [read, hchars, hq, List.dropWhile_cons_of_neg (by decide), List.cons_append,
    value_map, hmembers]
  simp only [Option.map_none, ite_self]

end Json

end Leasehold

import MiniBox.Jsmn

namespace MiniBox.Jsmn

def Blank (w : List UInt8) : Prop := ∀ c ∈ w, isSpace c = true

inductive Body : List UInt8 → Prop
  | nil : Body []
  | plain {c : UInt8} {l : List UInt8} : c ≠ 0 → c ≠ quote → c ≠ backslash → Body l → Body (c :: l)
  | escape {d : UInt8} {l : List UInt8} : isEscape d = true → Body l → Body (backslash :: d :: l)
  | unicode {a b c d : UInt8} {l : List UInt8} : (∀ x ∈ [a, b, c, d], x ≠ 0 ∧ isHex x = true) → Body l →
      Body (backslash :: chr 'u' :: a :: b :: c :: d :: l)

def isBare (c : UInt8) : Bool := !endsPrimitive c && decide (32 < c) && decide (c < 127)

structure Bare (v : List UInt8) : Prop where
  nonempty : v ≠ []
  chars : ∀ c ∈ v, isBare c = true
  start : ∀ c ∈ v.head?, openType c = none ∧ c ≠ quote

structure Member where
  key : List UInt8
  quoted : Bool
  value : List UInt8
  deriving DecidableEq

namespace Member

structure WellFormed (m : Member) : Prop where
  key : Body m.key
  value : if m.quoted then Body m.value else Bare m.value

def valueText (m : Member) : List UInt8 := if m.quoted then quote :: (m.value ++ [quote]) else m.value

end Member

structure Spacing where
  beforeKey : List UInt8
  afterKey : List UInt8
  beforeValue : List UInt8
  afterValue : List UInt8

structure Spacing.WellFormed (w : Spacing) : Prop where
  beforeKey : Blank w.beforeKey
  afterKey : Blank w.afterKey
  beforeValue : Blank w.beforeValue
  afterValue : Blank w.afterValue

def Member.written (m : Member) (w : Spacing) : List UInt8 :=
  w.beforeKey ++ (quote :: (m.key ++ (quote :: (w.afterKey ++ (chr ':' ::
    (w.beforeValue ++ (m.valueText ++ w.afterValue)))))))

inductive Members : List Member → List UInt8 → Prop
  | last {m : Member} {w : Spacing} : m.WellFormed → w.WellFormed → Members [m] (m.written w)
  | cons {m : Member} {w : Spacing} {ms : List Member} {t : List UInt8} : m.WellFormed → w.WellFormed →
      Members ms t → Members (m :: ms) (m.written w ++ (chr ',' :: t))

inductive FlatObject : List Member → List UInt8 → Prop
  | empty {w₀ w w₁ : List UInt8} : Blank w₀ → Blank w → Blank w₁ →
      FlatObject [] (w₀ ++ (chr '{' :: (w ++ (chr '}' :: w₁))))
  | full {ms : List Member} {t w₀ w₁ : List UInt8} : Blank w₀ → Members ms t → Blank w₁ →
      FlatObject ms (w₀ ++ (chr '{' :: (t ++ (chr '}' :: w₁))))

inductive Spells (buf : List UInt8) : List Token → List Member → Prop
  | nil : Spells buf [] []
  | cons {k v : Token} {toks : List Token} {m : Member} {ms : List Member} :
      k.type = .string → k.text buf = m.key → k.stop = some (k.start + m.key.length) →
      v.type = (if m.quoted then .string else .primitive) → v.text buf = m.value →
      v.stop = some (v.start + m.value.length) →
      Spells buf toks ms → Spells buf (k :: v :: toks) (m :: ms)

section Reading

variable {num pos pos' pos'' : ℕ} {rest rest' rest'' : List UInt8} {toks toks' toks'' : List Token}

def Reads (num pos : ℕ) (rest : List UInt8) (toks : List Token) (pos' : ℕ) (rest' : List UInt8)
    (toks' : List Token) : Prop :=
  ∃ j, j + rest'.length ≤ rest.length ∧
    ∀ n, parseLoop num (n + j) pos rest toks = parseLoop num n pos' rest' toks'

theorem Reads.refl (num pos : ℕ) (rest : List UInt8) (toks : List Token) : Reads num pos rest toks pos rest toks :=
  ⟨0, by omega, fun _ => rfl⟩

theorem Reads.trans (h : Reads num pos rest toks pos' rest' toks')
    (h' : Reads num pos' rest' toks' pos'' rest'' toks'') : Reads num pos rest toks pos'' rest'' toks'' := by
  obtain ⟨j, hj, hrun⟩ := h
  obtain ⟨j', hj', hrun'⟩ := h'
  refine ⟨j' + j, by omega, fun n => ?_⟩
  rw [← Nat.add_assoc, hrun, hrun']

theorem reads_turn {c : UInt8} {cs : List UInt8} (hlen : rest'.length ≤ cs.length)
    (h : ∀ n, parseLoop num (n + 1) pos (c :: cs) toks = parseLoop num n pos' rest' toks') :
    Reads num pos (c :: cs) toks pos' rest' toks' :=
  ⟨1, by simpa [Nat.add_comm] using hlen, h⟩

theorem reads_space {c : UInt8} (hc : isSpace c = true) : Reads num pos (c :: rest) toks (pos + 1) rest toks := by
  apply reads_turn (le_refl _)
  intro n
  have hcases : c = chr '\t' ∨ c = chr '\r' ∨ c = chr '\n' ∨ c = chr ' ' := by simpa [isSpace, or_assoc] using hc
  rcases hcases with rfl | rfl | rfl | rfl <;> rfl

theorem reads_blank {w : List UInt8} (hw : Blank w) : Reads num pos (w ++ rest) toks (pos + w.length) rest toks := by
  induction w generalizing pos with
  | nil => exact Reads.refl _ _ _ _
  | cons c w ih =>
    have htail : Reads num (pos + 1) (w ++ rest) toks (pos + 1 + w.length) rest toks :=
      ih fun x hx => hw x (List.mem_cons_of_mem c hx)
    rw [Nat.add_assoc, Nat.add_comm 1] at htail
    exact (reads_space (hw c List.mem_cons_self)).trans htail

theorem reads_colon : Reads num pos (chr ':' :: rest) toks (pos + 1) rest toks :=
  reads_turn (le_refl _) fun _ => rfl

theorem reads_comma : Reads num pos (chr ',' :: rest) toks (pos + 1) rest toks :=
  reads_turn (le_refl _) fun _ => rfl

theorem alloc_ok {t : Token} (h : toks.length < num) : alloc num toks t = .ok (toks ++ [t]) :=
  if_neg (Nat.not_le.mpr h)

theorem reads_open (h : toks.length < num) :
    Reads num pos (chr '{' :: rest) toks (pos + 1) rest (toks ++ [⟨.object, pos, none⟩]) := by
  apply reads_turn (le_refl _)
  intro n
  change (do let toks ← alloc num toks ⟨.object, pos, none⟩; parseLoop num n (pos + 1) rest toks) = _
  rw [alloc_ok h]
  rfl

theorem reads_close (h : closeLast .object (pos + 1) toks = some toks') :
    Reads num pos (chr '}' :: rest) toks (pos + 1) rest toks' := by
  apply reads_turn (le_refl _)
  intro n
  rw [parseLoop, if_neg (by decide), show openType (chr '}') = none from rfl]
  dsimp only
  rw [show closeType (chr '}') = some .object from rfl]
  dsimp only
  rw [h]

theorem scanString_hex {l : List UInt8} (h : ∀ x ∈ l, x ≠ 0 ∧ isHex x = true) :
    scanString pos l.length (l ++ rest) = scanString (pos + l.length) 0 rest := by
  induction l generalizing pos with
  | nil => rfl
  | cons c l ih =>
    obtain ⟨h0, hc⟩ := h c List.mem_cons_self
    rw [List.cons_append, List.length_cons, scanString, if_neg h0, if_pos hc,
      ih fun x hx => h x (List.mem_cons_of_mem c hx), Nat.add_assoc, Nat.add_comm 1]

theorem scanString_quote : scanString pos 0 (quote :: rest) = .closed pos rest := by
  rw [scanString.eq_def]
  rfl

theorem scanString_plain {c : UInt8} (h0 : c ≠ 0) (hq : c ≠ quote) (hb : c ≠ backslash) :
    scanString pos 0 (c :: rest) = scanString (pos + 1) 0 rest := by
  rw [scanString.eq_def]
  dsimp only
  rw [if_neg h0, if_neg hq, if_neg hb]

theorem scanString_body {l : List UInt8} (h : Body l) :
    scanString pos 0 (l ++ (quote :: rest)) = .closed (pos + l.length) rest := by
  induction h generalizing pos with
  | nil => exact scanString_quote
  | plain h0 hq hb _ ih =>
    rw [List.cons_append, scanString_plain h0 hq hb, ih, List.length_cons, Nat.add_assoc, Nat.add_comm 1]
  | escape hd _ ih =>
    rw [List.cons_append, List.cons_append, scanString, if_neg (by decide), if_neg (by decide), if_pos rfl,
      if_pos hd, ih, List.length_cons, List.length_cons]
    congr 1
    omega
  | @unicode a b c d l hx _ ih =>
    have hhex : scanString (pos + 2) 4 ([a, b, c, d] ++ (l ++ (quote :: rest))) =
        scanString (pos + 2 + 4) 0 (l ++ (quote :: rest)) := scanString_hex hx
    rw [List.cons_append, List.cons_append, scanString, if_neg (by decide), if_neg (by decide), if_pos rfl,
      if_neg (by decide), if_pos rfl]
    refine hhex.trans ?_
    rw [ih]
    simp only [List.length_cons]
    congr 1
    omega

theorem reads_string {l : List UInt8} (hl : Body l) (h : toks.length < num) :
    Reads num pos (quote :: (l ++ (quote :: rest))) toks (pos + 1 + l.length + 1) rest
      (toks ++ [⟨.string, pos + 1, some (pos + 1 + l.length)⟩]) := by
  apply reads_turn (by simp; omega)
  intro n
  rw [parseLoop, if_neg (by decide), show openType quote = none from rfl]
  dsimp only
  rw [show closeType quote = none from rfl]
  dsimp only
  rw [if_pos rfl, scanString_body hl]
  dsimp only
  rw [alloc_ok h]
  rfl

def Stops (rest : List UInt8) : Prop := ∃ c cs, rest = c :: cs ∧ endsPrimitive c = true

theorem Stops.blank {w : List UInt8} (hw : Blank w) (h : Stops rest) : Stops (w ++ rest) := by
  cases w with
  | nil => exact h
  | cons c w =>
    refine ⟨c, w ++ rest, rfl, ?_⟩
    have hc := hw c List.mem_cons_self
    simp [endsPrimitive, hc]

theorem isBare_iff {c : UInt8} : isBare c = true ↔ endsPrimitive c = false ∧ 32 < c ∧ c < 127 := by
  simp [isBare, and_assoc]

theorem scanPrimitive_bare {v : List UInt8} (hv : ∀ c ∈ v, isBare c = true) (h : Stops rest) :
    scanPrimitive pos (v ++ rest) = some (pos + v.length, rest) := by
  induction v generalizing pos with
  | nil =>
    obtain ⟨c, cs, rfl, hc⟩ := h
    rw [List.nil_append, scanPrimitive]
    split_ifs
    · rfl
    · rfl
  | cons c v ih =>
    obtain ⟨hend, hlow, hhigh⟩ := isBare_iff.mp (hv c List.mem_cons_self)
    have h0 : c ≠ 0 := by
      rintro rfl
      exact absurd hlow (by decide)
    have hrange : ¬ ((decide (c < 32) || decide (127 ≤ c)) = true) := by
      simp only [Bool.or_eq_true, decide_eq_true_eq, not_or]
      exact ⟨fun hlt => absurd (UInt8.lt_trans hlt hlow) (UInt8.lt_irrefl _), UInt8.not_le.mpr hhigh⟩
    rw [List.cons_append, scanPrimitive, if_neg h0, if_neg (by simp [hend]), if_neg hrange,
      ih fun x hx => hv x (List.mem_cons_of_mem c hx), List.length_cons, Nat.add_assoc, Nat.add_comm 1]

theorem reads_primitive {v : List UInt8} (hv : Bare v) (hrest : Stops rest) (h : toks.length < num) :
    Reads num pos (v ++ rest) toks (pos + v.length) rest
      (toks ++ [⟨.primitive, pos, some (pos + v.length)⟩]) := by
  obtain ⟨c, cs, rfl⟩ := List.exists_cons_of_ne_nil hv.nonempty
  obtain ⟨hopen, hquote⟩ := hv.start c rfl
  obtain ⟨hend, hlow, -⟩ := isBare_iff.mp (hv.chars c List.mem_cons_self)
  have h0 : c ≠ 0 := by
    rintro rfl
    exact absurd hlow (by decide)
  simp only [endsPrimitive, Bool.or_eq_false_iff, decide_eq_false_iff_not] at hend
  obtain ⟨⟨⟨⟨hcolon, hspace⟩, hcomma⟩, hbracket⟩, hbrace⟩ := hend
  have hclose : closeType c = none := by
    rw [closeType, if_neg hbrace, if_neg hbracket]
  rw [List.cons_append]
  apply reads_turn (by simp)
  intro n
  rw [parseLoop, if_neg h0, hopen]
  dsimp only
  rw [hclose]
  dsimp only
  rw [if_neg hquote, if_neg (by simp [hspace, hcolon, hcomma]), ← List.cons_append,
    scanPrimitive_bare hv.chars hrest]
  dsimp only
  rw [alloc_ok h]
  rfl

theorem text_eq {buf pre l post : List UInt8} {t : Token} (hbuf : buf = pre ++ (l ++ post))
    (hstart : t.start = pre.length) (hstop : t.stop = some (pre.length + l.length)) : t.text buf = l := by
  rw [Token.text, hstart, hstop, hbuf, List.drop_left, Option.getD_some, Nat.add_sub_cancel_left, List.take_left]

def Member.valueToken (m : Member) (pre : ℕ) : Token :=
  if m.quoted then ⟨.string, pre + 1, some (pre + 1 + m.value.length)⟩
  else ⟨.primitive, pre, some (pre + m.value.length)⟩

theorem reads_value {m : Member} (hm : m.WellFormed) (hrest : Stops rest) (h : toks.length < num) :
    Reads num pos (m.valueText ++ rest) toks (pos + m.valueText.length) rest (toks ++ [m.valueToken pos]) := by
  have hvalue := hm.value
  unfold Member.valueText Member.valueToken
  by_cases hq : m.quoted = true
  · rw [if_pos hq] at hvalue ⊢
    rw [if_pos hq]
    rw [List.cons_append, List.append_assoc, List.length_cons, List.length_append, List.length_singleton,
      show pos + (m.value.length + 1 + 1) = pos + 1 + m.value.length + 1 by omega]
    exact reads_string hvalue h
  · rw [if_neg hq] at hvalue ⊢
    rw [if_neg hq]
    exact reads_primitive hvalue hrest h

theorem valueToken_spells {m : Member} {buf pre post : List UInt8} (hbuf : buf = pre ++ (m.valueText ++ post)) :
    (m.valueToken pre.length).type = (if m.quoted then .string else .primitive) ∧
      (m.valueToken pre.length).text buf = m.value ∧
      (m.valueToken pre.length).stop = some ((m.valueToken pre.length).start + m.value.length) := by
  unfold Member.valueText at hbuf
  unfold Member.valueToken
  by_cases hq : m.quoted = true
  · rw [if_pos hq] at hbuf ⊢
    rw [if_pos hq]
    refine ⟨rfl, ?_, rfl⟩
    have hsplit : buf = (pre ++ [quote]) ++ (m.value ++ (quote :: post)) := by
      rw [hbuf]
      simp
    apply text_eq hsplit
    · simp
    · simp
  · rw [if_neg hq] at hbuf ⊢
    rw [if_neg hq]
    exact ⟨rfl, text_eq hbuf rfl rfl, rfl⟩

theorem reads_member {m : Member} {w : Spacing} (hm : m.WellFormed) (hw : w.WellFormed) (hrest : Stops rest)
    (hnum : toks.length + 2 ≤ num) (pre : List UInt8) :
    ∃ k v, Reads num pre.length (m.written w ++ rest) toks (pre.length + (m.written w).length) rest (toks ++ [k, v]) ∧
      ∀ toks' ms, Spells (pre ++ (m.written w ++ rest)) toks' ms →
        Spells (pre ++ (m.written w ++ rest)) (k :: v :: toks') (m :: ms) := by
  have hvalue : pre ++ (m.written w ++ rest) =
      (pre ++ (w.beforeKey ++ (quote :: (m.key ++ (quote :: (w.afterKey ++ (chr ':' :: w.beforeValue))))))) ++
        (m.valueText ++ (w.afterValue ++ rest)) := by
    simp [Member.written]
  have hkey : pre ++ (m.written w ++ rest) = (pre ++ (w.beforeKey ++ [quote])) ++ (m.key ++ (quote ::
      (w.afterKey ++ (chr ':' :: (w.beforeValue ++ (m.valueText ++ (w.afterValue ++ rest))))))) := by
    simp [Member.written]
  obtain ⟨htype, htext, hstop⟩ := valueToken_spells hvalue
  refine ⟨⟨.string, pre.length + w.beforeKey.length + 1,
      some (pre.length + w.beforeKey.length + 1 + m.key.length)⟩, m.valueToken _, ?_, fun toks' ms hs =>
    .cons rfl (text_eq hkey (by simp; omega) (by simp; omega)) rfl htype htext hstop hs⟩
  have hwritten : m.written w ++ rest = w.beforeKey ++ (quote :: (m.key ++ (quote :: (w.afterKey ++ (chr ':' ::
      (w.beforeValue ++ (m.valueText ++ (w.afterValue ++ rest)))))))) := by
    simp [Member.written]
  have hend : pre.length + (m.written w).length = pre.length + w.beforeKey.length + 1 + m.key.length + 1 +
      w.afterKey.length + 1 + w.beforeValue.length + m.valueText.length + w.afterValue.length := by
    simp only [Member.written, List.length_append, List.length_cons]
    omega
  have hplace : (pre ++ (w.beforeKey ++ (quote :: (m.key ++ (quote :: (w.afterKey ++ (chr ':' ::
      w.beforeValue))))))).length = pre.length + w.beforeKey.length + 1 + m.key.length + 1 +
      w.afterKey.length + 1 + w.beforeValue.length := by
    simp only [List.length_append, List.length_cons]
    omega
  have hpair : ∀ k v : Token, toks ++ [k, v] = toks ++ [k] ++ [v] := by simp
  rw [hwritten, hend, hplace, hpair]
  apply Reads.trans (reads_blank hw.beforeKey)
  apply Reads.trans (reads_string hm.key (by omega))
  apply Reads.trans (reads_blank hw.afterKey)
  apply Reads.trans reads_colon
  apply Reads.trans (reads_blank hw.beforeValue)
  apply Reads.trans (reads_value hm (hrest.blank hw.afterValue) (by rw [List.length_append, List.length_singleton]; omega))
  exact reads_blank hw.afterValue

theorem reads_members {ms : List Member} {t : List UInt8} (hms : Members ms t) (hrest : Stops rest)
    (hnum : toks.length + 2 * ms.length ≤ num) (pre : List UInt8) :
    ∃ new, Reads num pre.length (t ++ rest) toks (pre.length + t.length) rest (toks ++ new) ∧
      Spells (pre ++ (t ++ rest)) new ms := by
  induction hms generalizing toks pre with
  | last hm hw =>
    obtain ⟨k, v, hread, hspell⟩ := reads_member hm hw hrest hnum pre
    exact ⟨[k, v], hread, hspell [] [] .nil⟩
  | @cons m w ms t hm hw _ ih =>
    rw [List.length_cons] at hnum
    have hstops : Stops (chr ',' :: (t ++ rest)) := ⟨_, _, rfl, by decide⟩
    obtain ⟨k, v, hread, hspell⟩ := reads_member hm hw hstops (show toks.length + 2 ≤ num by omega) pre
    have hroom : (toks ++ [k, v]).length + 2 * ms.length ≤ num := by
      rw [List.length_append, List.length_cons, List.length_singleton]
      omega
    obtain ⟨new, hreads, hspells⟩ := ih hroom (pre ++ (m.written w ++ [chr ',']))
    have hbuf : pre ++ (m.written w ++ [chr ',']) ++ (t ++ rest) = pre ++ (m.written w ++ (chr ',' :: (t ++ rest))) := by
      simp
    have htext : (m.written w ++ (chr ',' :: t)) ++ rest = m.written w ++ (chr ',' :: (t ++ rest)) := by simp
    have hplace : (pre ++ (m.written w ++ [chr ','])).length = pre.length + (m.written w).length + 1 := by
      simp only [List.length_append, List.length_singleton]
      omega
    rw [hbuf] at hspells
    rw [hplace] at hreads
    rw [htext]
    refine ⟨k :: v :: new, ?_, hspell new ms hspells⟩
    have hall := (hread.trans reads_comma).trans hreads
    rw [List.append_assoc] at hall
    rw [show pre.length + (m.written w ++ (chr ',' :: t)).length = pre.length + (m.written w).length + 1 + t.length by
      simp only [List.length_append, List.length_cons]; omega]
    exact hall

theorem Spells.closed {buf : List UInt8} {ms : List Member} (h : Spells buf toks ms) :
    toks.any Token.isOpen = false := by
  induction h with
  | nil => rfl
  | cons _ _ hk _ _ hv _ ih => simp [Token.isOpen, hk, hv, ih]

theorem closeLast_closed {type : TokenType} {start stop : ℕ} (h : toks.any Token.isOpen = false) :
    closeLast type stop (⟨type, start, none⟩ :: toks) = some (⟨type, start, some stop⟩ :: toks) := by
  rw [closeLast, if_neg (by simp [h]), if_pos rfl]
  rfl

theorem parseLoop_end (n : ℕ) : parseLoop num n pos [] toks = finish toks := by
  cases n <;> rfl

theorem Reads.parse {js : List UInt8} (h : Reads num 0 js [] pos [] toks) : parse js num = finish toks := by
  obtain ⟨j, hj, hrun⟩ := h
  have hfuel : js.length + 1 = js.length + 1 - j + j := by
    rw [List.length_nil] at hj
    omega
  rw [Jsmn.parse, hfuel, hrun, parseLoop_end]

theorem reads_object {ms : List Member} {t w₀ w₁ : List UInt8} {new : List Token} (hw₀ : Blank w₀) (hw₁ : Blank w₁)
    (hnum : 0 < num)
    (ht : Reads num (w₀.length + 1) (t ++ (chr '}' :: w₁)) [⟨.object, w₀.length, none⟩] (w₀.length + 1 + t.length)
      (chr '}' :: w₁) (⟨.object, w₀.length, none⟩ :: new))
    (hs : Spells (w₀ ++ (chr '{' :: (t ++ (chr '}' :: w₁)))) new ms) :
    ∃ obj toks, parse (w₀ ++ (chr '{' :: (t ++ (chr '}' :: w₁)))) num = .ok (obj :: toks) ∧ obj.type = .object ∧
      Spells (w₀ ++ (chr '{' :: (t ++ (chr '}' :: w₁)))) toks ms := by
  have hblank : Reads num (w₀.length + 1 + t.length + 1) (w₁ ++ [])
      (⟨.object, w₀.length, some (w₀.length + 1 + t.length + 1)⟩ :: new) (w₀.length + 1 + t.length + 1 + w₁.length) []
      (⟨.object, w₀.length, some (w₀.length + 1 + t.length + 1)⟩ :: new) := reads_blank hw₁
  rw [List.append_nil] at hblank
  have hread : Reads num 0 (w₀ ++ (chr '{' :: (t ++ (chr '}' :: w₁)))) [] (w₀.length + 1 + t.length + 1 + w₁.length) []
      (⟨.object, w₀.length, some (w₀.length + 1 + t.length + 1)⟩ :: new) := by
    apply Reads.trans (reads_blank hw₀)
    rw [Nat.zero_add]
    apply Reads.trans (reads_open hnum)
    apply Reads.trans ht
    apply Reads.trans (reads_close (closeLast_closed hs.closed))
    exact hblank
  refine ⟨_, new, hread.parse.trans (if_neg ?_), rfl, hs⟩
  simp [Token.isOpen, hs.closed]

theorem parse_flat {ms : List Member} {text : List UInt8} (h : FlatObject ms text) (hnum : 1 + 2 * ms.length ≤ num) :
    ∃ obj toks, parse text num = .ok (obj :: toks) ∧ obj.type = .object ∧ Spells text toks ms := by
  cases h with
  | empty hw₀ hw hw₁ => exact reads_object hw₀ hw₁ (by omega) (reads_blank hw) .nil
  | @full ms t w₀ w₁ hw₀ hms hw₁ =>
    have hstops : Stops (chr '}' :: w₁) := ⟨_, _, rfl, by decide⟩
    obtain ⟨new, hread, hspell⟩ := reads_members hms hstops
      (show [(⟨.object, w₀.length, none⟩ : Token)].length + 2 * ms.length ≤ num from hnum) (w₀ ++ [chr '{'])
    have hplace : (w₀ ++ [chr '{']).length = w₀.length + 1 := by simp
    rw [hplace] at hread
    rw [List.append_assoc] at hspell
    exact reads_object hw₀ hw₁ (by omega) hread hspell

end Reading

end MiniBox.Jsmn

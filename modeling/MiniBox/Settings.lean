import MiniBox.FlatObjects
import MiniBox.Outcomes
import MiniBox.MemoryBlock

/-!
The settings channel of the guest kit, `waterbox_settings.h`: scalar values are looked up by
key in the mounted file, or in a buffer that the core hands over.
-/

namespace MiniBox

open Jsmn Outcomes

structure SettingsSource where
  override : Option (List UInt8)
  file : Option (List UInt8)

namespace SettingsSource

def maxBytes : ℕ := 8192
def maxTokens : ℕ := 256

def buffer (s : SettingsSource) : Option (List UInt8) :=
  match s.override with
  | some json => some (json.take (maxBytes - 1))
  | none => s.file.map (List.take (maxBytes - 1))

def strncmpEq : ℕ → List UInt8 → List UInt8 → Bool
  | 0, _, _ => true
  | n + 1, x :: a, y :: b => decide (x = y) && (decide (x = 0) || strncmpEq n a b)
  | _ + 1, _, _ => false

def names (buf key : List UInt8) (k : Token) : Bool :=
  decide (k.type = .string) && decide (k.stop.getD 0 - k.start = key.length) &&
    strncmpEq key.length (buf.drop k.start ++ [0]) (key ++ [0])

/-- The loop over the tokens behind the object. It looks at every token that has another one
behind it, whether it is a key or a value. -/
def findValue (buf key : List UInt8) : List Token → Option Token
  | k :: v :: toks => if names buf key k then some v else findValue buf key (v :: toks)
  | _ => none

/-- The text that is copied to `out`; with no room for the terminator the size wraps. -/
def copyText (buf : List UInt8) (v : Token) (outsz : ℤ) : Except Crash (List UInt8) :=
  let len : ℤ := (v.stop.getD 0 : ℤ) - v.start
  let vlen := if outsz ≤ len then outsz - 1 else len
  if vlen < 0 then .error .segv else .ok ((buf.drop v.start).take vlen.toNat)

def settingRaw (s : SettingsSource) (key : List UInt8) (outsz : ℤ) : Except Crash (Option (List UInt8)) :=
  match s.buffer with
  | none => .ok none
  | some buf =>
    match parse buf maxTokens with
    | .error _ => .ok none
    | .ok [] => .ok none
    | .ok (obj :: toks) =>
      if obj.type ≠ .object then .ok none
      else match findValue buf key toks with
        | none => .ok none
        | some v => do
          let text ← copyText buf v outsz
          return some text

def settingNumber {α : Type} (convert : List UInt8 → α) (s : SettingsSource) (key : List UInt8) (dflt : α) :
    Except Crash α := do
  let v ← s.settingRaw key 64
  return v.elim dflt convert

def settingLong (strtol : List UInt8 → ℤ) (s : SettingsSource) (key : List UInt8) (dflt : ℤ) : Except Crash ℤ :=
  s.settingNumber strtol key dflt

def settingDouble {double : Type} (strtod : List UInt8 → double) (s : SettingsSource) (key : List UInt8)
    (dflt : double) : Except Crash double := s.settingNumber strtod key dflt

def truthy (v : List UInt8) : Bool :=
  let c := v.headD 0
  c = chr 't' || c = chr 'T' || (chr '1' ≤ c && c ≤ chr '9')

def settingBool (s : SettingsSource) (key : List UInt8) (dflt : ℤ) : Except Crash ℤ := do
  let v ← s.settingRaw key 16
  return v.elim dflt fun v => if truthy v then 1 else 0

def settingStr (s : SettingsSource) (key : List UInt8) (outsz : ℤ) : Except Crash ℤ := do
  let v ← s.settingRaw key outsz
  return v.elim (-1) fun v => ((v.takeWhile fun c => decide (c ≠ 0)).length : ℤ)

section Lookup

variable {buf key : List UInt8} {toks : List Token} {ms : List Member} {m : Member}

def valueOf (ms : List Member) (key : List UInt8) : Option (List UInt8) :=
  (ms.find? fun m => decide (m.key = key)).map Member.value

def decoys (key : List UInt8) (m : Member) : Bool := m.quoted && decide (m.value = key)

def foundText (key : List UInt8) : List Member → Option (List UInt8)
  | [] => none
  | m :: ms =>
    if m.key = key then some m.value
    else if decoys key m then ms.head?.map Member.key
    else foundText key ms

theorem strncmpEq_iff (hkey : 0 ∉ key) (l : List UInt8) (hlen : key.length ≤ l.length) :
    strncmpEq key.length l (key ++ [0]) = true ↔ l.take key.length = key := by
  induction key generalizing l with
  | nil => simp [strncmpEq]
  | cons y key ih =>
    cases l with
    | nil => simp at hlen
    | cons x l =>
      obtain ⟨hy, hrest⟩ : ¬ 0 = y ∧ 0 ∉ key := by simpa using hkey
      have htail := ih hrest l (by simpa using hlen)
      rw [List.length_cons, List.cons_append, strncmpEq, List.take_succ_cons, List.cons.injEq, ← htail]
      by_cases hxy : x = y
      · have hx : ¬ y = 0 := fun h => hy h.symm
        simp [hxy, hx]
      · simp [hxy]

theorem names_iff {t : Token} {text : List UInt8} (hkey : 0 ∉ key) (htext : t.text buf = text)
    (hstop : t.stop = some (t.start + text.length)) : names buf key t = true ↔ t.type = .string ∧ text = key := by
  have hlen : text.length = min text.length (buf.length - t.start) := by
    have := congrArg List.length htext
    rw [Token.text, hstop, Option.getD_some, Nat.add_sub_cancel_left, List.length_take, List.length_drop] at this
    exact this.symm
  have htake : (buf.drop t.start).take text.length = text := by
    rw [Token.text, hstop, Option.getD_some, Nat.add_sub_cancel_left] at htext
    exact htext
  simp only [names, hstop, Option.getD_some, Nat.add_sub_cancel_left, Bool.and_eq_true, decide_eq_true_eq, and_assoc]
  apply and_congr_right'
  constructor
  · rintro ⟨hk, hcmp⟩
    have hroom : key.length ≤ (buf.drop t.start ++ [0]).length := by
      rw [List.length_append, List.length_drop]
      omega
    rw [strncmpEq_iff hkey _ hroom, ← hk, List.take_append_of_le_length (by rw [List.length_drop]; omega), htake] at hcmp
    exact hcmp
  · rintro rfl
    have hroom : text.length ≤ (buf.drop t.start ++ [0]).length := by
      rw [List.length_append, List.length_drop]
      omega
    rw [strncmpEq_iff hkey _ hroom, List.take_append_of_le_length (by rw [List.length_drop]; omega)]
    exact ⟨rfl, htake⟩

theorem findValue_spec (h : Spells buf toks ms) (hkey : 0 ∉ key) :
    (findValue buf key toks = none ∧ foundText key ms = none) ∨
      ∃ v text, findValue buf key toks = some v ∧ foundText key ms = some text ∧ v.text buf = text ∧
        v.stop = some (v.start + text.length) := by
  induction h with
  | nil => exact .inl ⟨rfl, rfl⟩
  | @cons k v toks m ms hk hktext hkstop hv hvtext hvstop hrest ih =>
    have hkey' := names_iff hkey hktext hkstop
    have hvalue' := names_iff hkey hvtext hvstop
    by_cases hm : m.key = key
    · refine .inr ⟨v, m.value, ?_, ?_, hvtext, hvstop⟩
      · rw [findValue, if_pos (hkey'.mpr ⟨hk, hm⟩)]
      · rw [foundText, if_pos hm]
    have hfind : findValue buf key (k :: v :: toks) = findValue buf key (v :: toks) := by
      rw [findValue, if_neg fun hn => hm (hkey'.mp hn).2]
    have hdecoy : names buf key v = true ↔ decoys key m = true := by
      rw [hvalue', hv, decoys, Bool.and_eq_true, decide_eq_true_eq]
      cases m.quoted <;> simp
    rw [hfind, foundText, if_neg hm]
    by_cases hd : decoys key m = true
    · rw [if_pos hd]
      cases hrest with
      | nil => exact .inl ⟨rfl, rfl⟩
      | @cons k' v' toks' m' ms' _ hktext' hkstop' =>
        refine .inr ⟨k', m'.key, ?_, rfl, hktext', hkstop'⟩
        rw [findValue, if_pos (hdecoy.mpr hd)]
    · rw [if_neg hd]
      have hskip : findValue buf key (v :: toks) = findValue buf key toks := by
        cases toks with
        | nil => rfl
        | cons k' toks' => rw [findValue, if_neg fun hn => hd (hdecoy.mp hn)]
      rw [hskip]
      exact ih

theorem copyText_eq {v : Token} {text : List UInt8} {outsz : ℤ} (htext : v.text buf = text)
    (hstop : v.stop = some (v.start + text.length)) (hout : 1 ≤ outsz) :
    copyText buf v outsz = .ok (text.take (outsz - 1).toNat) := by
  have hcut : ∀ n, n ≤ text.length → (buf.drop v.start).take n = text.take n := by
    intro n hn
    rw [← htext, Token.text, hstop, Option.getD_some, Nat.add_sub_cancel_left, List.take_take, Nat.min_eq_left hn]
  have hlen : ((v.start + text.length : ℕ) : ℤ) - v.start = text.length := by omega
  simp only [copyText, hstop, Option.getD_some, hlen]
  by_cases hlong : outsz ≤ text.length
  · rw [if_pos hlong, if_neg (by omega), hcut _ (by omega)]
  · rw [if_neg hlong, if_neg (by omega), Int.toNat_natCast, hcut _ (le_refl _), List.take_of_length_le (le_refl _),
      List.take_of_length_le (by omega)]

end Lookup

section Correctness

variable {text key : List UInt8} {ms : List Member} {s : SettingsSource}

def Supplies (s : SettingsSource) (text : List UInt8) : Prop :=
  s.override = some text ∨ s.override = none ∧ s.file = some text

theorem Supplies.buffer (h : s.Supplies text) (hlen : text.length < maxBytes) : s.buffer = some text := by
  have htake : text.take (maxBytes - 1) = text := List.take_of_length_le (by omega)
  rcases h with h | ⟨h, hf⟩
  · rw [SettingsSource.buffer, h]
    exact congrArg some htake
  · rw [SettingsSource.buffer, h, hf]
    exact congrArg some htake

theorem settingRaw_eq (h : FlatObject ms text) (hlen : text.length < maxBytes) (hnum : 1 + 2 * ms.length ≤ maxTokens)
    (hs : s.Supplies text) (hkey : 0 ∉ key) {outsz : ℤ} (hout : 1 ≤ outsz) :
    s.settingRaw key outsz = .ok ((foundText key ms).map (List.take (outsz - 1).toNat)) := by
  obtain ⟨obj, toks, hparse, hobj, hspell⟩ := parse_flat h hnum
  unfold settingRaw
  rw [hs.buffer hlen]
  dsimp only
  rw [hparse]
  dsimp only
  rw [if_neg (not_not.mpr hobj)]
  rcases findValue_spec hspell hkey with ⟨hfind, hfound⟩ | ⟨v, value, hfind, hfound, htext, hstop⟩
  · rw [hfind, hfound]
    rfl
  · rw [hfind, hfound]
    dsimp only
    rw [copyText_eq htext hstop hout]
    rfl

/-- If the first member that has the text of the key as its key or as its string value has it as
its value, and another member follows, then the right value happens to have the text of the key
of that other member. -/
def Unmistaken (ms : List Member) (key : List UInt8) : Prop :=
  ∀ before m next after, ms = before ++ m :: next :: after →
    (∀ x ∈ before, x.key ≠ key ∧ decoys key x = false) → m.key ≠ key → decoys key m = true →
    valueOf ms key = some next.key

theorem valueOf_cons_ne {m : Member} (h : m.key ≠ key) : valueOf (m :: ms) key = valueOf ms key := by
  rw [valueOf, List.find?_cons_of_neg (by simpa using h)]
  rfl

theorem unmistaken_iff : foundText key ms = valueOf ms key ↔ Unmistaken ms key := by
  induction ms with
  | nil => simp [foundText, valueOf, Unmistaken]
  | cons m ms ih =>
    by_cases hm : m.key = key
    · have hright : foundText key (m :: ms) = valueOf (m :: ms) key := by
        rw [foundText, if_pos hm, valueOf, List.find?_cons_of_pos (by simpa using hm)]
        rfl
      refine iff_of_true hright ?_
      intro before m₁ next after he hbefore hne
      cases before with
      | nil =>
        cases he
        exact absurd hm hne
      | cons x before =>
        cases he
        exact absurd hm (hbefore _ List.mem_cons_self).1
    rw [foundText, if_neg hm, valueOf_cons_ne hm]
    by_cases hd : decoys key m = true
    · rw [if_pos hd]
      constructor
      · intro hfound before m₁ next after he hbefore _ _
        cases before with
        | nil =>
          cases he
          rw [valueOf_cons_ne hm]
          exact hfound.symm
        | cons x before =>
          cases he
          have hno := (hbefore _ List.mem_cons_self).2
          rw [hd] at hno
          cases hno
      · intro hu
        cases ms with
        | nil => rfl
        | cons next after =>
          have hvalue := hu [] m next after rfl (fun x hx => absurd hx List.not_mem_nil) hm hd
          rw [valueOf_cons_ne hm] at hvalue
          exact hvalue.symm
    · rw [if_neg hd, ih]
      have hd' : decoys key m = false := Bool.eq_false_of_not_eq_true hd
      constructor
      · intro hu before m₁ next after he hbefore hne hdecoy
        cases before with
        | nil =>
          cases he
          exact absurd hdecoy hd
        | cons x before =>
          cases he
          rw [valueOf_cons_ne hm]
          exact hu before m₁ next after rfl (fun x hx => hbefore x (List.mem_cons_of_mem _ hx)) hne hdecoy
      · intro hu before m₁ next after he hbefore hne hdecoy
        rw [← valueOf_cons_ne hm]
        refine hu (m :: before) m₁ next after (by rw [he]; rfl) ?_ hne hdecoy
        intro x hx
        rcases List.mem_cons.mp hx with rfl | hx
        · exact ⟨hm, hd'⟩
        · exact hbefore x hx

structure LooksUp (s : SettingsSource) (ms : List Member) (key : List UInt8) : Prop where
  raw : ∀ outsz : ℤ, 1 ≤ outsz →
    s.settingRaw key outsz = .ok ((valueOf ms key).map (List.take (outsz - 1).toNat))
  long : ∀ strtol, (∀ dflt, s.settingLong strtol key dflt = .ok dflt) ↔ valueOf ms key = none
  double : ∀ (double : Type) [Nontrivial double] (strtod : List UInt8 → double),
    (∀ dflt, s.settingDouble strtod key dflt = .ok dflt) ↔ valueOf ms key = none
  bool : (∀ dflt, s.settingBool key dflt = .ok dflt) ↔ valueOf ms key = none
  str : ∀ outsz : ℤ, 1 ≤ outsz → (s.settingStr key outsz = .ok (-1) ↔ valueOf ms key = none)

theorem default_iff {α : Type} [Nontrivial α] {f : List UInt8 → α} {v : Option (List UInt8)} {n : ℕ} :
    (∀ dflt, (.ok ((v.map (List.take n)).elim dflt f) : Except Crash α) = .ok dflt) ↔ v = none := by
  cases v with
  | none => exact iff_of_true (fun _ => rfl) rfl
  | some x =>
    refine iff_of_false ?_ (by simp)
    intro hall
    obtain ⟨a, b, hab⟩ := exists_pair_ne α
    exact hab ((Except.ok.inj (hall a)).symm.trans (Except.ok.inj (hall b)))

theorem setting_lookup_iff (h : FlatObject ms text) (hlen : text.length < maxBytes)
    (hnum : 1 + 2 * ms.length ≤ maxTokens) (hs : s.Supplies text) (hkey : 0 ∉ key) :
    s.LooksUp ms key ↔ Unmistaken ms key := by
  rw [← unmistaken_iff]
  have hraw : ∀ outsz : ℤ, 1 ≤ outsz →
      s.settingRaw key outsz = .ok ((foundText key ms).map (List.take (outsz - 1).toNat)) :=
    fun outsz hout => settingRaw_eq h hlen hnum hs hkey hout
  constructor
  · intro hl
    -- an output that is large enough for both texts
    obtain ⟨n, hn⟩ : ∃ n : ℕ, ∀ x ∈ (foundText key ms).toList ++ (valueOf ms key).toList, x.length ≤ n :=
      ⟨(((foundText key ms).toList ++ (valueOf ms key).toList).map List.length).sum,
        fun x hx => List.single_le_sum (by simp) _ (List.mem_map_of_mem hx)⟩
    have hsame := Except.ok.inj ((hraw (n + 1) (by omega)).symm.trans (hl.raw (n + 1) (by omega)))
    have hid : ∀ v : Option (List UInt8), (∀ x ∈ v.toList, x.length ≤ n) →
        v.map (List.take ((n : ℤ) + 1 - 1).toNat) = v := by
      intro v hv
      cases v with
      | none => rfl
      | some x =>
        have hx := hv x (by simp)
        rw [Option.map_some, List.take_of_length_le (by omega)]
    rwa [hid _ fun x hx => hn x (List.mem_append_left _ hx), hid _ fun x hx => hn x (List.mem_append_right _ hx)]
      at hsame
  · intro hfound
    rw [hfound] at hraw
    refine ⟨hraw, fun strtol => ?_, fun double _ strtod => ?_, ?_, fun outsz hout => ?_⟩
    · simp only [settingLong, settingNumber, hraw 64 (by decide), ok_bind]
      exact default_iff
    · simp only [settingDouble, settingNumber, hraw 64 (by decide), ok_bind]
      exact default_iff
    · simp only [settingBool, hraw 16 (by decide), ok_bind]
      exact default_iff
    · simp only [settingStr, hraw outsz hout, ok_bind]
      cases valueOf ms key with
      | none => exact iff_of_true rfl rfl
      | some x =>
        refine iff_of_false ?_ (by simp)
        intro he
        have hneg : ((((x.take (outsz - 1).toNat).takeWhile fun c => decide (c ≠ 0)).length : ℕ) : ℤ) = -1 :=
          Except.ok.inj he
        omega

def twoSettings : List Member := [⟨[chr 'a'], false, [chr '1']⟩, ⟨[chr 'b'], true, [chr 'a']⟩]

def tight : Spacing := ⟨[], [], [], []⟩

theorem tight_wellFormed : tight.WellFormed := by
  constructor <;> exact fun c hc => absurd hc List.not_mem_nil

theorem body_letter {c : UInt8} (h : c ≠ 0 ∧ c ≠ quote ∧ c ≠ backslash) : Body [c] := .plain h.1 h.2.1 h.2.2 .nil

theorem bare_one : Bare [chr '1'] := by
  refine ⟨by decide, List.forall_mem_singleton.mpr (by decide), ?_⟩
  intro c hc
  cases hc
  decide

theorem setting_lookup_second : ∃ text, FlatObject twoSettings text ∧
    LooksUp ⟨none, some text⟩ twoSettings [chr 'b'] ∧ valueOf twoSettings [chr 'b'] = some [chr 'a'] := by
  have ha : Member.WellFormed ⟨[chr 'a'], false, [chr '1']⟩ :=
    ⟨body_letter (by decide), bare_one⟩
  have hb : Member.WellFormed ⟨[chr 'b'], true, [chr 'a']⟩ := ⟨body_letter (by decide), body_letter (by decide)⟩
  have hnil : Blank [] := fun c hc => absurd hc List.not_mem_nil
  have hflat := FlatObject.full hnil (.cons ha tight_wellFormed (.last hb tight_wellFormed)) hnil
  refine ⟨_, hflat, (setting_lookup_iff hflat (by decide) (by decide) (.inr ⟨rfl, rfl⟩) (by decide)).mpr ?_, rfl⟩
  rw [← unmistaken_iff]
  decide

/-- The key `b` is absent, but the first value is the string `b`: the text of the following key is returned. -/
theorem setting_lookup_mistaken : ∃ text, text = ByteStream.ascii "\x7b\"a\":\"b\",\"c\":1\x7d" ∧
    FlatObject [⟨[chr 'a'], true, [chr 'b']⟩, ⟨[chr 'c'], false, [chr '1']⟩] text ∧
    valueOf [⟨[chr 'a'], true, [chr 'b']⟩, ⟨[chr 'c'], false, [chr '1']⟩] [chr 'b'] = none ∧
    settingRaw ⟨none, some text⟩ [chr 'b'] 64 = .ok (some [chr 'c']) := by
  have ha : Member.WellFormed ⟨[chr 'a'], true, [chr 'b']⟩ := ⟨body_letter (by decide), body_letter (by decide)⟩
  have hc : Member.WellFormed ⟨[chr 'c'], false, [chr '1']⟩ :=
    ⟨body_letter (by decide), bare_one⟩
  have hnil : Blank [] := fun c hc => absurd hc List.not_mem_nil
  have hflat := FlatObject.full hnil (.cons ha tight_wellFormed (.last hc tight_wellFormed)) hnil
  exact ⟨_, by decide +kernel, hflat, rfl, by decide +kernel⟩

end Correctness

end SettingsSource

end MiniBox

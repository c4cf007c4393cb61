import MiniBox.GuestRuns

namespace MiniBox

open ByteStream Effects Outcomes

namespace Block

variable {b b' : Block}

def guestByte (b : Block) (a : UInt64) : UInt8 := (b.pages (b.pageOf a)).data (offsetOf a)

def guestBytes (b : Block) : ℕ → UInt64 → List UInt8
  | 0, _ => []
  | n + 1, a => b.guestByte a :: b.guestBytes n (a + 1)

def word (b : Block) (a : UInt64) : UInt32 := UInt32.ofNat (leDigits (b.guestBytes 4 a))

theorem place_inj {a x : UInt64} (hp : b.pageOf a = b.pageOf x) (ho : offsetOf a = offsetOf x) : a = x := by
  have hs := (eq_alignDown_iff _).mp b.span.start_aligned
  have hlt := b.addr.start.toNat_lt
  have ha := a.toNat_lt
  have hx := x.toNat_lt
  have ho' : a.toNat % 4096 = x.toNat % 4096 := congrArg Fin.val ho
  unfold pageOf at hp
  rw [toNat_shiftRight_page, toNat_shiftRight_page, UInt64.toNat_sub, UInt64.toNat_sub] at hp
  apply UInt64.toNat_inj.mp
  omega

theorem guestByte_write {a : UInt64} {v : UInt8} (h : b.guestWrite a v = .ok b') (x : UInt64) :
    b'.guestByte x = if x = a then v else b.guestByte x := by
  obtain ⟨-, -, rfl⟩ := guestWrite_cases h
  have hpage : (b.setPage (b.pageOf a) ((b.pages (b.pageOf a)).written (offsetOf a) v)).pageOf x = b.pageOf x := rfl
  unfold guestByte
  rw [hpage, setPage_pages]
  by_cases hp : b.pageOf x = b.pageOf a
  · rw [hp, Function.update_self, (written_plain _ _ _).1]
    by_cases hx : x = a
    · rw [if_pos hx, hx, Function.update_self]
    · have ho : offsetOf x ≠ offsetOf a := fun ho => hx (place_inj hp ho)
      rw [if_neg hx, Function.update_of_ne ho]
  · have hx : x ≠ a := fun hx => hp (congrArg b.pageOf hx)
    rw [Function.update_of_ne hp, if_neg hx]

theorem exec_write {a : UInt64} {v : UInt8} {u : Unit} (h : exec (blockMemory.write a v) b = (.ok u, b')) :
    b.guestWrite a v = .ok b' := by
  have hf := exec_attempt_cases h
  cases hw : b.guestWrite a v with
  | error e =>
    rw [hw] at hf
    cases hf
  | ok b₁ =>
    rw [hw] at hf
    cases hf
    rfl

theorem exec_read {a : UInt64} {v : UInt8} (h : exec (blockMemory.read a) b = (.ok v, b')) :
    v = b.guestByte a ∧ b' = b := by
  have hf := exec_attempt_cases h
  unfold guestRead at hf
  by_cases hm : (b.mapped a && (b.pages (b.pageOf a)).native.read) = true
  · rw [if_pos hm] at hf
    cases hf
    exact ⟨rfl, rfl⟩
  · rw [if_neg hm] at hf
    cases hf

theorem exec_readBytes {n : ℕ} {a : UInt64} {vs : List UInt8}
    (h : exec (blockMemory.readBytes n a) b = (.ok vs, b')) : vs = b.guestBytes n a ∧ b' = b := by
  induction n generalizing a vs b' with
  | zero =>
    cases h
    exact ⟨rfl, rfl⟩
  | succ n ih =>
    obtain ⟨v, b₁, hv, h⟩ := exec_bind_cases h
    obtain ⟨rfl, rfl⟩ := exec_read hv
    obtain ⟨ws, b₂, hws, h⟩ := exec_bind_cases h
    obtain ⟨rfl, rfl⟩ := ih hws
    cases h
    exact ⟨rfl, rfl⟩

theorem exec_load32 {a : UInt64} {v : UInt32} (h : exec (blockMemory.load32 a) b = (.ok v, b')) :
    v = b.word a ∧ b' = b := by
  obtain ⟨vs, b₁, hvs, h⟩ := exec_bind_cases h
  obtain ⟨rfl, rfl⟩ := exec_readBytes hvs
  cases h
  exact ⟨rfl, rfl⟩

theorem guestByte_writeBytes {a : UInt64} {vs : List UInt8} {u : Unit}
    (h : exec (blockMemory.writeBytes a vs) b = (.ok u, b')) {x : UInt64}
    (hx : ∀ i < vs.length, x ≠ a + UInt64.ofNat i) : b'.guestByte x = b.guestByte x := by
  induction vs generalizing a b with
  | nil =>
    cases h
    rfl
  | cons v vs ih =>
    obtain ⟨w, b₁, hw, h⟩ := exec_bind_cases h
    have hne : x ≠ a := by
      have h0 := hx 0 (by simp)
      simpa using h0
    have hrest : b'.guestByte x = b₁.guestByte x := by
      apply ih h
      intro i hi
      have hi' := hx (i + 1) (by simpa using hi)
      rwa [UInt64.ofNat_add, UInt64.add_comm (UInt64.ofNat i), ← UInt64.add_assoc] at hi'
    rw [hrest, guestByte_write (exec_write hw), if_neg hne]

theorem guestBytes_writeBytes {a : UInt64} {vs : List UInt8} {u : Unit} (hlen : vs.length < 2 ^ 64)
    (h : exec (blockMemory.writeBytes a vs) b = (.ok u, b')) : b'.guestBytes vs.length a = vs := by
  induction vs generalizing a b with
  | nil => rfl
  | cons v vs ih =>
    obtain ⟨w, b₁, hw, h⟩ := exec_bind_cases h
    have hlen' : vs.length < 2 ^ 64 := by
      rw [List.length_cons] at hlen
      omega
    have hhead : b'.guestByte a = v := by
      rw [guestByte_writeBytes h, guestByte_write (exec_write hw), if_pos rfl]
      intro i hi he
      have hi64 : i + 1 < 2 ^ 64 := by
        rw [List.length_cons] at hlen
        omega
      have hz : (1 : UInt64) + UInt64.ofNat i = 0 := by
        apply (UInt64.add_right_inj a).mp
        rw [← UInt64.add_assoc, ← he, UInt64.add_zero]
      have hnat := congrArg UInt64.toNat hz
      rw [UInt64.toNat_add, UInt64.toNat_ofNat_of_lt' (Nat.lt_of_succ_lt hi64)] at hnat
      simp only [UInt64.toNat_one, UInt64.toNat_zero] at hnat
      omega
    rw [List.length_cons, guestBytes, hhead, ih hlen' h]

theorem exec_store32 {a : UInt64} {v : UInt32} {u : Unit} (h : exec (blockMemory.store32 a v) b = (.ok u, b')) :
    b'.word a = v := by
  have hbytes := guestBytes_writeBytes (by rw [length_le32]; norm_num) h
  rw [length_le32] at hbytes
  rw [word, hbytes, leDigits_le32]

section Access

def CanRead (b : Block) (x : UInt64) : Prop := b.mapped x = true ∧ (b.pages (b.pageOf x)).native.read = true

def CanWrite (b : Block) (x : UInt64) : Prop :=
  b.mapped x = true ∧ ((b.pages (b.pageOf x)).native.write = true ∨ (b.pages (b.pageOf x)).isWritable = true)

def cellsFrom (a : UInt64) (n : ℕ) : Set UInt64 := {x | ∃ i < n, x = a + UInt64.ofNat i}

theorem mem_cellsFrom_succ {a x : UInt64} {n : ℕ} : x ∈ cellsFrom a (n + 1) ↔ x = a ∨ x ∈ cellsFrom (a + 1) n := by
  have hshift : ∀ i, a + UInt64.ofNat (i + 1) = a + 1 + UInt64.ofNat i := by
    intro i
    rw [UInt64.ofNat_add, UInt64.add_comm (UInt64.ofNat i), ← UInt64.add_assoc]
    rfl
  constructor
  · rintro ⟨i, hi, rfl⟩
    cases i with
    | zero => exact Or.inl (UInt64.add_zero a)
    | succ i => exact Or.inr ⟨i, by omega, hshift i⟩
  · rintro (rfl | ⟨i, hi, rfl⟩)
    · exact ⟨0, by omega, (UInt64.add_zero x).symm⟩
    · exact ⟨i + 1, by omega, (hshift i).symm⟩

structure StoresIn (S : Set UInt64) (b b' : Block) : Prop where
  bytes : ∀ x, x ∉ S → b'.guestByte x = b.guestByte x
  canRead : ∀ x, b.CanRead x → b'.CanRead x
  canWrite : ∀ x, b.CanWrite x → b'.CanWrite x

theorem StoresIn.refl (S : Set UInt64) (b : Block) : StoresIn S b b := ⟨fun _ _ => rfl, fun _ h => h, fun _ h => h⟩

theorem StoresIn.trans {S : Set UInt64} {b₁ : Block} (h : StoresIn S b b₁) (h' : StoresIn S b₁ b') : StoresIn S b b' :=
  ⟨fun x hx => (h'.bytes x hx).trans (h.bytes x hx), fun x hx => h'.canRead x (h.canRead x hx),
    fun x hx => h'.canWrite x (h.canWrite x hx)⟩

theorem StoresIn.mono {S T : Set UInt64} (h : StoresIn S b b') (hst : ∀ x ∈ S, x ∈ T) : StoresIn T b b' :=
  ⟨fun x hx => h.bytes x fun hs => hx (hst x hs), h.canRead, h.canWrite⟩

theorem native_trip_read {p : Page} (h : p.isWritable = true) : p.trip.native.read = true := by
  rw [isWritable_eq] at h
  have hn : p.trip.native = protToNative (nativeProt p.status true) := by
    simp [Page.trip, Page.refresh, Page.protect, Page.nativeProt]
  rw [hn, native_eq]
  rcases (grants_write _).mp h with hs | hs | hs
  · rw [hs]
    rfl
  · rw [hs]
    rfl
  · rw [hs]
    rfl

theorem storesIn_write {a : UInt64} {v : UInt8} (h : b.guestWrite a v = .ok b') : StoresIn {a} b b' := by
  obtain ⟨-, hpage, rfl⟩ := guestWrite_cases h
  have hstatus := (written_plain (b.pages (b.pageOf a)) (offsetOf a) v).2
  refine ⟨?_, ?_, ?_⟩
  · intro x hx
    rw [guestByte_write h]
    exact if_neg hx
  · rintro x ⟨hm, hr⟩
    refine ⟨hm, ?_⟩
    change (Function.update b.pages (b.pageOf a) _ (b.pageOf x)).native.read = true
    by_cases hp : b.pageOf x = b.pageOf a
    · rw [hp, Function.update_self]
      rw [hp] at hr
      unfold Page.written
      split_ifs with hw
      · exact hr
      · exact native_trip_read (hpage.resolve_left hw)
    · rw [Function.update_of_ne hp]
      exact hr
  · rintro x ⟨hm, hw⟩
    refine ⟨hm, ?_⟩
    change (Function.update b.pages (b.pageOf a) _ (b.pageOf x)).native.write = true ∨
      (Function.update b.pages (b.pageOf a) _ (b.pageOf x)).isWritable = true
    by_cases hp : b.pageOf x = b.pageOf a
    · rw [hp, Function.update_self]
      rw [hp] at hw
      rcases hw with hn | hs
      · left
        unfold Page.written
        rw [if_pos hn]
        exact hn
      · right
        unfold Page.isWritable at hs ⊢
        rwa [hstatus]
    · rw [Function.update_of_ne hp]
      exact hw

theorem exec_readBytes_all {n : ℕ} {a : UInt64} (h : ∀ x ∈ cellsFrom a n, b.CanRead x) :
    exec (blockMemory.readBytes n a) b = (.ok (b.guestBytes n a), b) := by
  induction n generalizing a with
  | zero => rfl
  | succ n ih =>
    obtain ⟨hm, hr⟩ := h a (mem_cellsFrom_succ.mpr (Or.inl rfl))
    have hread : exec (blockMemory.read a) b = (.ok (b.guestByte a), b) := by
      change exec (attempt fun b => (b.guestRead a).map (·, b)) b = _
      rw [exec_attempt, guestRead, if_pos (by rw [hm, hr]; rfl)]
      rfl
    rw [GuestMemory.readBytes, exec_bind_ok hread,
      exec_bind_ok (ih fun x hx => h x (mem_cellsFrom_succ.mpr (Or.inr hx)))]
    rfl

theorem exec_writeBytes_all {a : UInt64} {vs : List UInt8} (h : ∀ x ∈ cellsFrom a vs.length, b.CanWrite x) :
    ∃ b', exec (blockMemory.writeBytes a vs) b = (.ok (), b') ∧ StoresIn (cellsFrom a vs.length) b b' := by
  induction vs generalizing a b with
  | nil => exact ⟨b, rfl, .refl _ b⟩
  | cons v vs ih =>
    obtain ⟨hm, hw⟩ := h a (mem_cellsFrom_succ.mpr (Or.inl rfl))
    obtain ⟨b₁, hb₁⟩ : ∃ b₁, b.guestWrite a v = .ok b₁ := by
      rw [guestWrite_eq, if_pos hm, if_pos (by simpa using hw)]
      exact ⟨_, rfl⟩
    have hstore := storesIn_write hb₁
    have hwrite : exec (blockMemory.write a v) b = (.ok (), b₁) := by
      change exec (attempt fun b => (b.guestWrite a v).map ((), ·)) b = _
      rw [exec_attempt, hb₁]
      rfl
    obtain ⟨b', hrest, hstores⟩ := ih fun x hx => hstore.canWrite x (h x (mem_cellsFrom_succ.mpr (Or.inr hx)))
    refine ⟨b', ?_, ?_⟩
    · rw [GuestMemory.writeBytes, exec_bind_ok hwrite, hrest]
    · refine (hstore.mono ?_).trans (hstores.mono ?_)
      · rintro x rfl
        exact mem_cellsFrom_succ.mpr (Or.inl rfl)
      · intro x hx
        exact mem_cellsFrom_succ.mpr (Or.inr hx)

theorem length_guestBytes (b : Block) (n : ℕ) (a : UInt64) : (b.guestBytes n a).length = n := by
  induction n generalizing a with
  | zero => rfl
  | succ n ih => rw [guestBytes, List.length_cons, ih]

theorem guestBytes_congr {n : ℕ} {a : UInt64} (h : ∀ x ∈ cellsFrom a n, b'.guestByte x = b.guestByte x) :
    b'.guestBytes n a = b.guestBytes n a := by
  induction n generalizing a with
  | zero => rfl
  | succ n ih =>
    rw [guestBytes, guestBytes, h a (mem_cellsFrom_succ.mpr (Or.inl rfl)),
      ih fun x hx => h x (mem_cellsFrom_succ.mpr (Or.inr hx))]

theorem guestBytes_add (b : Block) (m n : ℕ) (a : UInt64) :
    b.guestBytes (m + n) a = b.guestBytes m a ++ b.guestBytes n (a + UInt64.ofNat m) := by
  induction m generalizing a with
  | zero =>
    rw [Nat.zero_add]
    exact congrArg (b.guestBytes n) (UInt64.add_zero a).symm
  | succ m ih =>
    have hshift : a + UInt64.ofNat (m + 1) = a + 1 + UInt64.ofNat m := by
      rw [UInt64.ofNat_add, UInt64.add_comm (UInt64.ofNat m), ← UInt64.add_assoc]
      rfl
    rw [Nat.add_right_comm, guestBytes, ih, guestBytes, hshift]
    rfl

theorem guestBytes_store {n : ℕ} {a : UInt64} {vs : List UInt8} {u : Unit} (hvs : vs.length ≤ n) (hn : n < 2 ^ 64)
    (h : exec (blockMemory.writeBytes a vs) b = (.ok u, b')) :
    b'.guestBytes n a = vs ++ (b.guestBytes n a).drop vs.length := by
  obtain ⟨m, rfl⟩ := Nat.exists_eq_add_of_le hvs
  have hrest : b'.guestBytes m (a + UInt64.ofNat vs.length) = b.guestBytes m (a + UInt64.ofNat vs.length) := by
    apply guestBytes_congr
    rintro x ⟨j, hj, rfl⟩
    apply guestByte_writeBytes h
    intro i hi he
    rw [UInt64.add_assoc, UInt64.add_right_inj, ← UInt64.ofNat_add] at he
    have hnat := congrArg UInt64.toNat he
    rw [UInt64.toNat_ofNat_of_lt' (show vs.length + j < 2 ^ 64 by omega),
      UInt64.toNat_ofNat_of_lt' (show i < 2 ^ 64 by omega)] at hnat
    omega
  have hdrop : (b.guestBytes vs.length a ++ b.guestBytes m (a + UInt64.ofNat vs.length)).drop vs.length =
      b.guestBytes m (a + UInt64.ofNat vs.length) :=
    List.drop_left' (b.length_guestBytes vs.length a)
  rw [guestBytes_add, guestBytes_add, guestBytes_writeBytes (by omega) h, hrest, hdrop]

end Access

end Block

end MiniBox

import MiniBox.ProgramBreak
import MiniBox.SetupSpecs
import MiniBox.StreamCuts

namespace MiniBox

open ByteStream Effects IndexLoops Outcomes StreamReaders

section BlockHeader

variable {b : Block} {s : Source}

def Block.HasHeader (b : Block) (bytes : List UInt8) : Prop :=
  ∃ hash table tail : List UInt8, hash.length = 32 ∧ table.length = b.npages + b.npages ∧
    bytes = blockMagic ++ (hash ++ (rangeBytes b.addr ++ (table ++ tail)))

theorem rangeBytes_rangeOfBytes (raw : Bytes 16) : Block.rangeBytes (Block.rangeOfBytes raw) = List.ofFn raw := by
  rw [Block.rangeBytes, Block.rangeOfBytes, u64Bytes_u64OfBytes, u64Bytes_u64OfBytes]
  exact (List.ofFn_add (m := 8) (n := 8)).symm

theorem loadHeader_full {l : Pass} (h : b.loadHeader s = .inr l) : b.HasHeader s.rest := by
  unfold Block.loadHeader at h
  simp only at h
  split_ifs at h with h1 h2 h3 h4 h5 h6 h7
  simp only [Bool.not_eq_true', Bool.not_eq_false, ne_eq, not_not] at h1 h2 h3 h4 h5 h6 h7
  rw [rdMagic_true h1 h2, rd_true h3, rd_true h4, ← rangeBytes_rangeOfBytes, h5, rd_true h6, rd_true h7,
    ← List.append_assoc (List.ofFn _) (List.ofFn _) (Source.rest _)]
  exact ⟨_, _, _, List.length_ofFn, by rw [List.length_append, List.length_ofFn, List.length_ofFn], rfl⟩

theorem loadState_rejects (h : ¬ b.HasHeader s.rest) : ∃ rc s', rc ≠ 0 ∧ b.loadState s = .ok (rc, b, s') := by
  unfold Block.loadState
  by_cases hs : b.sealed = true
  · rw [if_pos hs]
    cases hh : b.loadHeader s with
    | inl r => exact ⟨r.1, r.2, loadHeader_code hh, rfl⟩
    | inr l => exact (h (loadHeader_full hh)).elim
  · rw [if_neg hs]
    exact ⟨-einval, s, by decide, rfl⟩

end BlockHeader

namespace Host

section Break

def beforeBreak : List UInt8 := saveStart ++ (fsMagic ++ fsEndMagic)

def breakBytes (bytes : List UInt8) : List UInt8 :=
  if beforeBreak <+: bytes then (bytes.drop beforeBreak.length).take 8 else []

theorem length_breakBytes (bytes : List UInt8) : (breakBytes bytes).length ≤ 8 := by
  unfold breakBytes
  split_ifs
  · exact List.length_take_le 8 _
  · exact Nat.zero_le 8

theorem breakBytes_of_not {bytes : List UInt8} (h : ¬ beforeBreak <+: bytes) : breakBytes bytes = [] := if_neg h

theorem breakBytes_append (t : List UInt8) : breakBytes (beforeBreak ++ t) = t.take 8 := by
  rw [breakBytes, if_pos (List.prefix_append _ _), List.drop_left]

end Break

section Readers

variable {D : Prop} {α : Type} {x : Reader Crash Loading α} {l l' : Loading} {bytes tail p : List UInt8} {a : α}
  {msg : String}

theorem exec_blaming (msg : String) (x : Reader Crash Loading α) (s : Loading × Source) :
    exec (blaming msg x) s = match exec x s with
      | (.error .refused, (l, src)) => (.error .refused, ({ l with errbuf := some msg }, src))
      | r => r := rfl

theorem takes_blaming (h : Takes D x l bytes a l' tail) : Takes D (blaming msg x) l bytes a l' tail := by
  constructor
  intro src hsrc
  rcases h.run src hsrc with ⟨src', hrun, hrest⟩ | ⟨hd, e, s, hdies⟩
  · exact Or.inl ⟨src', by rw [exec_blaming, hrun], hrest⟩
  · exact Or.inr ⟨hd, e, s, by rw [exec_blaming, hdies]⟩

theorem refuses_blaming (h : Refuses D x l bytes l') :
    Refuses D (blaming msg x) l bytes { l' with errbuf := some msg } := by
  constructor
  intro src hsrc
  rcases h.run src hsrc with ⟨src', hrun⟩ | ⟨hd, e, s, hdies⟩
  · exact Or.inl ⟨src', by rw [exec_blaming, hrun]⟩
  · exact Or.inr ⟨hd, e, s, by rw [exec_blaming, hdies]⟩

theorem takes_magic (magic tail : List UInt8) :
    Takes D (blaming msg (expect magic)) l (magic ++ tail) () l tail :=
  takes_blaming ((consumes_expect magic l).takes tail)

theorem refuses_magic {magic : List UInt8} (h : ¬ magic <+: bytes) :
    Refuses D (blaming msg (expect magic)) l bytes { l with errbuf := some msg } :=
  refuses_blaming (refuses_expect h)

abbrev loadBreak : Reader Crash Loading UInt64 :=
  reading (fun l src => rdU64 l.host.programBreak src)
    fun l v => { l with host := { l.host with programBreak := v } }

theorem consumes_break (v : UInt64) :
    Consumes loadBreak l (le64 v) v { l with host := { l.host with programBreak := v } } := by
  apply consumes_reading
  intro src tail hs
  exact rdU64_of l.host.programBreak v src tail hs

theorem refuses_break (h : p.length < 8) :
    Refuses D loadBreak l p { l with host := { l.host with programBreak := patched u64Coding l.host.programBreak p } } := by
  apply refuses_reading
  intro src hsrc
  rw [rdU64, rd_fst, rd_buf, hsrc, List.take_of_length_le (by omega)]
  exact ⟨decide_eq_false (by omega), rfl⟩

theorem refuses_checkElfHash {raw : Bytes 32} (h : raw ≠ l.host.elfHash) :
    Refuses D (checkElfHash raw) l bytes l := by
  constructor
  intro src _
  refine Or.inl ⟨src, ?_⟩
  rw [checkElfHash, exec_calling]
  simp [h]

theorem takes_checkElfHash : Takes D (checkElfHash l.host.elfHash) l bytes () l bytes := by
  constructor
  intro src hsrc
  refine Or.inl ⟨src, ?_, hsrc⟩
  rw [checkElfHash, exec_calling]
  simp

theorem refuses_loadBlock (h : ¬ l.host.block.HasHeader bytes) : Refuses D loadBlock l bytes l := by
  constructor
  rintro src rfl
  obtain ⟨rc, src', hrc, hload⟩ := loadState_rejects h
  refine Or.inl ⟨src', ?_⟩
  rw [loadBlock, exec_calling, hload]
  simp only [ok_bind]
  change (if rc = 0 then _ else _, _) = _
  rw [if_neg hrc]

end Readers

def HasImageHeader (h : Host) (bytes : List UInt8) : Prop :=
  ∃ tail, bytes = elfMagic ++ (List.ofFn h.elfHash ++ tail) ∧ h.block.HasHeader tail

def HasHeader (h : Host) (bytes : List UInt8) : Prop :=
  ∃ brk tail, bytes = beforeBreak ++ (le64 brk ++ tail) ∧ h.HasImageHeader tail

section Refusal

variable {h : Host} {bytes : List UInt8}

abbrev loadImage : Reader Crash Loading Unit := do
  blaming "bad elf magic" (expect elfMagic)
  let raw ← readBytes 32
  blaming "ELF hash mismatch" (checkElfHash raw)
  blaming "memory block load failed" loadBlock
  blaming "thread set load failed" loadThreads
  blaming "bad end magic" (expect saveEnd)

theorem refuses_loadImage (hno : ¬ h.HasImageHeader bytes) :
    ∃ msg, Refuses False loadImage ⟨h, none⟩ bytes ⟨h, msg⟩ := by
  by_cases helf : elfMagic <+: bytes
  swap
  · exact ⟨_, refuses_left (refuses_magic helf)⟩
  obtain ⟨t, rfl⟩ := helf
  by_cases hlen : t.length < 32
  · exact ⟨none, refuses_right (takes_magic _ _) (refuses_left (refuses_readBytes hlen))⟩
  obtain ⟨raw, hraw⟩ := exists_ofFn (List.length_take_of_le (Nat.not_lt.mp hlen))
  rw [← List.take_append_drop 32 t, ← hraw] at hno ⊢
  by_cases hhash : raw = h.elfHash
  · subst hhash
    refine ⟨some "memory block load failed",
      refuses_right (takes_magic _ _) (refuses_right ((consumes_readBytes _ _).takes _) ?_)⟩
    refine refuses_right (takes_blaming (takes_checkElfHash (l := ⟨h, none⟩))) (refuses_left ?_)
    have hblock : Refuses False loadBlock ⟨h, none⟩ (t.drop 32) ⟨h, none⟩ :=
      refuses_loadBlock fun hb => hno ⟨_, rfl, hb⟩
    exact refuses_blaming hblock
  · refine ⟨some "ELF hash mismatch",
      refuses_right (takes_magic _ _) (refuses_right ((consumes_readBytes _ _).takes _) ?_)⟩
    exact refuses_left (refuses_blaming (refuses_checkElfHash hhash))

theorem loadBody_eq : loadBody = (do
    blaming "bad start magic" (expect saveStart)
    blaming "bad fs magic" (expect fsMagic)
    blaming "bad fs magic" (expect fsEndMagic)
    let _ ← loadBreak
    loadImage) := rfl

theorem refuses_loadBody (hno : ¬ h.HasHeader bytes) :
    ∃ msg, Refuses False loadBody ⟨h, none⟩ bytes
      ⟨{ h with programBreak := patched u64Coding h.programBreak (breakBytes bytes) }, msg⟩ := by
  rw [loadBody_eq]
  by_cases hb : beforeBreak <+: bytes
  swap
  · rw [breakBytes_of_not hb, patched_nil]
    by_cases h1 : saveStart <+: bytes
    swap
    · exact ⟨_, refuses_left (refuses_magic h1)⟩
    obtain ⟨t, rfl⟩ := h1
    by_cases h2 : fsMagic <+: t
    swap
    · exact ⟨_, refuses_right (takes_magic _ _) (refuses_left (refuses_magic h2))⟩
    obtain ⟨u, rfl⟩ := h2
    have h3 : ¬ fsEndMagic <+: u := by
      rintro ⟨v, rfl⟩
      exact hb ⟨v, by simp [beforeBreak]⟩
    exact ⟨_, refuses_right (takes_magic _ _) (refuses_right (takes_magic _ _) (refuses_left (refuses_magic h3)))⟩
  obtain ⟨t, rfl⟩ := hb
  rw [breakBytes_append]
  suffices hs : ∃ msg, Refuses False (loadBreak >>= fun _ => loadImage) ⟨h, none⟩ t
      ⟨{ h with programBreak := patched u64Coding h.programBreak (t.take 8) }, msg⟩ by
    obtain ⟨msg, hr⟩ := hs
    refine ⟨msg, ?_⟩
    rw [beforeBreak, List.append_assoc, List.append_assoc]
    exact refuses_right (takes_magic _ _) (refuses_right (takes_magic _ _) (refuses_right (takes_magic _ _) hr))
  by_cases hlen : t.length < 8
  · rw [List.take_of_length_le (Nat.le_of_lt hlen)]
    exact ⟨none, refuses_left (refuses_break hlen)⟩
  obtain ⟨v, u, rfl⟩ := exists_le64 (Nat.not_lt.mp hlen)
  rw [take_le64, patched_le64]
  obtain ⟨msg, hr⟩ := refuses_loadImage
    (show ¬ HasImageHeader { h with programBreak := v } u from fun hu => hno ⟨v, u, rfl, hu⟩)
  exact ⟨msg, refuses_right ((consumes_break v).takes u) hr⟩

end Refusal

section Residence

/-- The block of a host stays mapped from the first activation on, and follows the host's active flag. -/
structure Resident (h : Host) : Prop where
  swappedIn : h.block.swappedIn = true
  active : h.block.active = h.active

variable {h : Host}

theorem activate_resident {b b' : Block} (h : b.activate = .ok b') (ha : b.active = false) :
    b'.swappedIn = true ∧ b'.active = true := by
  unfold Block.activate at h
  rw [ha, if_neg (by decide)] at h
  split_ifs at h with hs
  · cases h
    exact ⟨hs, rfl⟩
  · rw [refreshAll_eq, ok_bind] at h
    cases h
    exact ⟨rfl, rfl⟩

theorem new_inactive {addr : Range} {b : Block} (h : Block.new addr = .ok (some b)) : b.active = false := by
  obtain ⟨-, span, rfl⟩ := Block.new_cases h
  rfl

theorem resident_create {span : Range} {hash : Bytes 32} {tpl : LayoutTemplate}
    (hmade : create span hash tpl = .ok (.inr h)) : h.Resident := by
  obtain ⟨b₀, b, layout, -, hnew, hb, rfl⟩ := create_cases hmade
  obtain ⟨hs, ha⟩ := activate_resident hb (new_inactive hnew)
  exact ⟨hs, ha⟩

theorem sealBlock_resident {b b' : Block} {rc : ℤ} (h : b.sealBlock = .ok (rc, b')) :
    b'.swappedIn = b.swappedIn ∧ b'.active = b.active := by
  unfold Block.sealBlock at h
  split_ifs at h with hs
  · cases h
    exact ⟨rfl, rfl⟩
  · rw [forRange_eq _ _ _ _ _ _ (by omega), ok_bind, refreshAll_eq, ok_bind] at h
    cases h
    exact ⟨rfl, rfl⟩

theorem Resident.sealHost {rc : ℤ} {msg : Option String} {h' : Host} (hr : h.Resident)
    (hseal : h.sealHost = .ok (rc, msg, h')) : h'.Resident := by
  unfold Host.sealHost at hseal
  split_ifs at hseal
  · cases hseal
    exact hr
  obtain ⟨⟨code, block⟩, hb, hseal⟩ := bind_ok hseal
  obtain ⟨hs, ha⟩ := sealBlock_resident hb
  have hblock : block.swappedIn = true ∧ block.active = h.active := ⟨hs.trans hr.swappedIn, ha.trans hr.active⟩
  dsimp only at hseal
  split_ifs at hseal
  · cases hseal
    exact ⟨hblock.1, hblock.2⟩
  · cases hseal
    exact ⟨hblock.1, hblock.2⟩

def awake (h : Host) : Host := { h with active := true, block := { h.block with active := true } }

theorem Resident.activate (hr : h.Resident) : h.activate = .ok h.awake := by
  obtain ⟨k, ⟨addr, span, pages, bsealed, swappedIn, bactive, bhash⟩, active, sealed, hash⟩ := h
  obtain ⟨rfl, rfl⟩ : swappedIn = true ∧ bactive = active := ⟨hr.swappedIn, hr.active⟩
  cases bactive <;> rfl

theorem Resident.leave (hr : h.Resident) : Host.leave h.active h.awake = h := by
  obtain ⟨k, ⟨addr, span, pages, bsealed, swappedIn, bactive, bhash⟩, active, sealed, hash⟩ := h
  obtain ⟨rfl, rfl⟩ : swappedIn = true ∧ bactive = active := ⟨hr.swappedIn, hr.active⟩
  cases bactive <;> rfl

end Residence

def RejectsUntouched (h : Host) (src : Source) : Prop :=
  ∃ msg src', h.loadState src = .ok (-1, msg, h, src')

theorem loadState_rejected {h : Host} (hr : h.Resident) (hs : h.sealed = true) {src : Source}
    (hno : ¬ h.HasHeader src.rest) : ∃ msg src', h.loadState src =
      .ok (-1, msg, { h with programBreak := patched u64Coding h.programBreak (breakBytes src.rest) }, src') := by
  obtain ⟨msg, href⟩ := refuses_loadBody (show ¬ h.awake.HasHeader src.rest from hno)
  rcases href.run src rfl with ⟨src', hrun⟩ | ⟨hd, -⟩
  swap
  · exact hd.elim
  refine ⟨msg, src', ?_⟩
  unfold loadState
  rw [if_neg (by simp [hs]), hr.activate, ok_bind, hrun]
  have hleave := Resident.leave (h := { h with programBreak := patched u64Coding h.programBreak (breakBytes src.rest) })
    ⟨hr.swappedIn, hr.active⟩
  exact congrArg (fun x : Host => (.ok (-1, msg, x, src') : Except Crash (ℤ × Option String × Host × Source))) hleave

theorem header_rejection_iff {h : Host} (hr : h.Resident) (hs : h.sealed = true) {src : Source}
    (hno : ¬ h.HasHeader src.rest) :
    h.RejectsUntouched src ↔ breakBytes src.rest <+: le64 h.programBreak := by
  have hbytes : patched u64Coding h.programBreak (breakBytes src.rest) = h.programBreak ↔ _ :=
    patched_eq_iff (length_breakBytes _)
  refine Iff.trans ?_ hbytes
  obtain ⟨msg, src', hload⟩ := loadState_rejected hr hs hno
  constructor
  · rintro ⟨msg', src'', hload'⟩
    rw [hload] at hload'
    have hh := congrArg (fun r : ℤ × Option String × Host × Source => r.2.2.1.programBreak) (Except.ok.inj hload')
    exact hh
  · intro hb
    rw [hb] at hload
    exact ⟨msg, src', hload⟩

theorem no_header_break (h : Host) (brk : UInt64) : ¬ h.HasHeader (beforeBreak ++ le64 brk) := by
  rintro ⟨v, tail, he, t, rfl, -⟩
  have hlen := congrArg List.length he
  have helf : elfMagic.length = 9 := by decide
  simp only [List.length_append, length_le64, helf] at hlen
  omega

theorem sealed_onePageHeap : ∃ h₀ h : Host, onePageHeap = .ok (.inr h₀) ∧ h₀.sealHost = .ok (0, none, h) ∧
    h.sealed = true ∧ h.programBreak = 0x36f00201000 := by
  have hrun : passes (do
      let h₀ ← onePageHeap >>= theHost
      let u₁ ← h₀.sealHost
      return decide (u₁.1 = 0 ∧ u₁.2.1 = none ∧ u₁.2.2.sealed = true ∧ u₁.2.2.programBreak = 0x36f00201000)) = true := by
    decide +kernel
  obtain ⟨h₀, hmade, hrun⟩ := passes_bind hrun
  obtain ⟨⟨rc, msg, h⟩, hseal, hrun⟩ := passes_bind hrun
  obtain ⟨r, hcreate, hr⟩ := bind_ok hmade
  obtain ⟨rfl, rfl, hsealed, hbreak⟩ := passes_pure hrun
  rw [theHost_ok hr] at hcreate
  exact ⟨h₀, h, hcreate, hseal, hsealed, hbreak⟩

theorem header_rejection_own_break : ∃ h₀ h : Host, onePageHeap = .ok (.inr h₀) ∧ h₀.sealHost = .ok (0, none, h) ∧
    h.RejectsUntouched ⟨beforeBreak ++ le64 0x36f00201000, fun _ => 1, 0⟩ := by
  obtain ⟨h₀, h, hmade, hseal, hsealed, hbreak⟩ := sealed_onePageHeap
  have hr := (resident_create hmade).sealHost hseal
  refine ⟨h₀, h, hmade, hseal, (header_rejection_iff hr hsealed (no_header_break h _)).mpr ?_⟩
  rw [hbreak, breakBytes_append, List.take_of_length_le (by simp)]

/-- A stream that ends behind another program break is rejected and has replaced the host's own. -/
theorem rejected_state_moves_break : ∃ (h₀ h : Host) (msg : Option String) (src' : Source),
    onePageHeap = .ok (.inr h₀) ∧ h₀.sealHost = .ok (0, none, h) ∧ h.programBreak = 0x36f00201000 ∧
    ¬ h.HasHeader (beforeBreak ++ le64 0) ∧
    h.loadState ⟨beforeBreak ++ le64 0, fun _ => 1, 0⟩ = .ok (-1, msg, { h with programBreak := 0 }, src') ∧
    ¬ h.RejectsUntouched ⟨beforeBreak ++ le64 0, fun _ => 1, 0⟩ := by
  obtain ⟨h₀, h, hmade, hseal, hsealed, hbreak⟩ := sealed_onePageHeap
  have hr := (resident_create hmade).sealHost hseal
  obtain ⟨msg, src', hload⟩ := loadState_rejected hr hsealed
    (show ¬ h.HasHeader (⟨beforeBreak ++ le64 0, fun _ => 1, 0⟩ : Source).rest from no_header_break h 0)
  rw [breakBytes_append, List.take_of_length_le (by simp), patched_le64] at hload
  refine ⟨h₀, h, msg, src', hmade, hseal, hbreak, no_header_break h 0, hload, ?_⟩
  rintro ⟨msg', src'', hload'⟩
  rw [hload] at hload'
  have hzero := congrArg (fun r : ℤ × Option String × Host × Source => r.2.2.1.programBreak) (Except.ok.inj hload')
  have hzero' : (0 : UInt64) = 0x36f00201000 := hzero.trans hbreak
  exact absurd hzero' (by decide)

end Host

end MiniBox

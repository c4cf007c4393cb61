import MiniBox.SealedImage

/-!
Rewinding a host: what it writes as its state it accepts again at any later point, and
from there a guest sees what it would have seen from the saved state on.
-/

namespace MiniBox

open ByteStream Effects LinearTables Outcomes Relation StreamReaders StreamWriters

namespace Host

variable {h s t : Host}

def stateBytes (h : Host) : List UInt8 :=
  saveStart ++ (fsMagic ++ (fsEndMagic ++ (le64 h.programBreak ++ (elfMagic ++ (List.ofFn h.elfHash ++
    (h.block.stateBytes ++ ((h.threads.parked h.context).stream ++ saveEnd)))))))

section Saving

theorem emits_saveBlock (hs : h.block.sealed = true) :
    Emits (handing saveBlock : Writer Crash Host Unit) h h.block.stateBytes h := by
  apply emits_handing
  intro w
  refine ⟨_, _, _, rfl, ?_⟩
  unfold Block.saveState
  rw [if_pos hs]
  rcases w.putAll_cases h.block.saveChunks with ⟨w', hput, hout, hfails⟩ | ⟨w', hput, hk⟩
  · rw [hput]
    exact .inl ⟨rfl, rfl, hout, hfails⟩
  · rw [hput]
    exact .inr ⟨show -eio ≠ 0 by decide, hk⟩

theorem emits_saveThreads (ha : h.threads.activeTid = 1) (hm : h.threads.HasMain) :
    Emits (handing saveThreads : Writer Crash Host Unit) h (h.threads.parked h.context).stream
      { h with threads := h.threads.parked h.context } := by
  apply emits_handing
  intro w
  obtain ⟨main, hmain⟩ := Option.isSome_iff_exists.mp (isSome_lookup.mpr hm)
  have hfind : h.threads.findThread 1 = some main := hmain
  unfold saveThreads ThreadSet.save
  rw [if_neg (not_not.mpr ha), hfind]
  rcases w.putAll_cases (h.threads.parked h.context).saveChunks with ⟨w', hput, hout, hfails⟩ | ⟨w', hput, hk⟩
  · simp only [hput]
    exact ⟨_, _, _, rfl, .inl ⟨rfl, rfl, hout, hfails⟩⟩
  · simp only [hput]
    exact ⟨_, _, _, rfl, .inr ⟨show (-1 : ℤ) ≠ 0 by decide, hk⟩⟩

theorem emits_saveBody (hs : h.block.sealed = true) (ha : h.threads.activeTid = 1) (hm : h.threads.HasMain) :
    Emits saveBody h h.stateBytes { h with threads := h.threads.parked h.context } := by
  apply emits_bind (emits_putting _ h)
  apply emits_bind (emits_putting _ h)
  apply emits_bind (emits_putting _ h)
  apply emits_bind (emits_putting _ h)
  apply emits_bind (emits_putting _ h)
  apply emits_bind (emits_putting _ h)
  apply emits_bind (emits_saveBlock hs)
  apply emits_bind (emits_saveThreads ha hm)
  exact emits_putting _ _

theorem saveState_spec {base : ℕ → PageData} (ho : h.Orderly) (hs : h.SealedOn base) (ha : h.threads.activeTid = 1)
    (w : Sink) :
    (∃ w', h.saveState w = .ok (0, none, { h with threads := h.threads.parked h.context }, w') ∧
      w'.out = w.out ++ h.stateBytes) ∨
    (∃ k, w.fails k = true) ∧ ∃ msg h' w', h.saveState w = .ok (-1, msg, h', w') := by
  have hbody := emits_saveBody (h := h.awake) hs.tracks.isSealed ha ho.main w
  unfold saveState
  rw [if_neg (by simp [hs.isSealed]), ho.resident.activate, ok_bind]
  generalize hx : exec saveBody (h.awake, w) = r at hbody
  cases hbody with
  | @done w' hout hfails =>
    refine .inl ⟨w', ?_, hout⟩
    have hleave := Resident.leave (h := { h with threads := h.threads.parked h.context })
      ⟨ho.resident.swappedIn, ho.resident.active⟩
    exact congrArg (fun x : Host => (.ok (0, none, x, w') : Except Crash (ℤ × Option String × Host × Sink))) hleave
  | refused hk => exact .inr ⟨hk, _, _, _, rfl⟩

theorem saveState_accepting {base : ℕ → PageData} (ho : h.Orderly) (hs : h.SealedOn base)
    (ha : h.threads.activeTid = 1) :
    ∃ h' w', h.saveState .accepting = .ok (0, none, h', w') ∧ w'.out = h.stateBytes := by
  rcases saveState_spec ho hs ha .accepting with ⟨w', hsave, hout⟩ | ⟨⟨k, hfail⟩, -⟩
  · exact ⟨_, w', hsave, hout⟩
  · cases hfail

theorem saveState_out {base : ℕ → PageData} {h' : Host} {msg : Option String} {w w' : Sink} (ho : h.Orderly)
    (hs : h.SealedOn base) (ha : h.threads.activeTid = 1) (hsave : h.saveState w = .ok (0, msg, h', w')) :
    w'.out = w.out ++ h.stateBytes := by
  rcases saveState_spec ho hs ha w with ⟨w₁, hsave', hout⟩ | ⟨-, msg', g, w₁, hsave'⟩
  · rw [hsave] at hsave'
    cases hsave'
    exact hout
  · rw [hsave] at hsave'
    cases hsave'

end Saving

section Loading

variable {base : ℕ → PageData}

theorem consumes_blaming {α : Type} {msg : String} {x : Reader Crash Loading α} {l l' : Loading} {bytes : List UInt8}
    {a : α} (hx : Consumes x l bytes a l') : Consumes (blaming msg x) l bytes a l' := by
  constructor
  intro src tail hsrc
  obtain ⟨src', hrun, hrest⟩ := hx.run src tail hsrc
  exact ⟨src', by rw [exec_blaming, hrun], hrest⟩

theorem yields_blaming {α : Type} {msg : String} {x : Reader Crash Loading α} {l : Loading} {bytes : List UInt8}
    {Q : Loading → Prop} (hx : Yields x l bytes Q) : Yields (blaming msg x) l bytes Q := by
  constructor
  intro src tail hsrc
  obtain ⟨a, l', src', hrun, hrest, hq⟩ := hx.run src tail hsrc
  exact ⟨a, l', src', by rw [exec_blaming, hrun], hrest, hq⟩

theorem consumes_checkElfHash {raw : Bytes 32} {l : Loading} (h : raw = l.host.elfHash) :
    Consumes (checkElfHash raw) l [] () l := by
  apply consumes_calling
  intro src tail hsrc
  exact ⟨src, by rw [if_pos h], hsrc⟩

theorem consumes_loadThreads {l : Loading} (hstore : s.threads.Storable) (hmain : s.threads.HasMain)
    (ha : l.host.threads.activeTid = 1) :
    Consumes loadThreads l (s.threads.parked s.context).stream ()
      { l with host := { l.host with threads := s.threads.parked s.context, context := s.context } } := by
  apply consumes_calling
  intro src tail hsrc
  obtain ⟨src', hload, hrest⟩ : ∃ src', l.host.threads.load l.host.context src =
      .ok (0, s.threads.parked s.context, s.context, src') ∧ src'.rest = tail :=
    ThreadSet.load_saved hstore (isSome_lookup.mpr hmain) ha hsrc
  refine ⟨src', ?_, hrest⟩
  rw [hload]
  rfl

theorem yields_loadBlock {l : Loading} (hs : s.block.Tracks base) (hl : l.host.block.Tracks base)
    (hk : Compatible s.block l.host.block) :
    Yields loadBlock l s.block.stateBytes fun l' =>
      ∃ block, Restored s.block l.host.block block ∧ l' = { l with host := { l.host with block } } := by
  apply yields_calling
  intro src tail hsrc
  obtain ⟨block, src', hload, hrest, hr, -⟩ := load_saved hk hs hl hsrc
  refine ⟨_, src', ?_, hrest, block, hr, rfl⟩
  rw [hload]
  rfl

def rewound (s t : Host) (block : Block) : Host :=
  { t with programBreak := s.programBreak, block, threads := s.threads.parked s.context, context := s.context }

theorem yields_loadBody (hs : s.SealedOn base) (ht : t.SealedOn base) (hk : s.Akin t) (hstore : s.threads.Storable)
    (hmain : s.threads.HasMain) (ha : t.threads.activeTid = 1) :
    Yields loadBody ⟨t, none⟩ s.stateBytes fun l' =>
      ∃ block, Restored s.block t.block block ∧ l' = ⟨s.rewound t block, none⟩ := by
  rw [loadBody_eq]
  apply (consumes_blaming (consumes_expect saveStart _)).andYields
  apply (consumes_blaming (consumes_expect fsMagic _)).andYields
  apply (consumes_blaming (consumes_expect fsEndMagic _)).andYields
  apply (consumes_break s.programBreak).andYields
  apply (consumes_blaming (consumes_expect elfMagic _)).andYields
  apply (consumes_readBytes s.elfHash _).andYields
  rw [← List.nil_append (s.block.stateBytes ++ _)]
  apply (consumes_blaming (consumes_checkElfHash hk.elfHash.symm)).andYields
  apply yields_bind (yields_blaming (yields_loadBlock hs.tracks ht.tracks hk.kin.toCompatible))
  rintro _ l' ⟨block, hr, rfl⟩
  apply (consumes_blaming (consumes_loadThreads hstore hmain ha)).andYields
  exact (consumes_blaming (consumes_expect saveEnd _)).yields ⟨block, hr, rfl⟩

theorem loadState_spec {src : Source} {tail : List UInt8} (hos : s.Orderly) (hot : t.Orderly) (hs : s.SealedOn base)
    (ht : t.SealedOn base) (hk : s.Akin t) (ha : t.threads.activeTid = 1) (hsrc : src.rest = s.stateBytes ++ tail) :
    ∃ block src', Restored s.block t.block block ∧ src'.rest = tail ∧
      t.loadState src = .ok (0, none, (s.rewound t.awake block).leave t.active, src') := by
  obtain ⟨hta, hka⟩ := ht.awake
  obtain ⟨_, l', src', hrun, hrest, block, hr, rfl⟩ :=
    (yields_loadBody hs hta (hk.trans hka) hos.storable hos.main ha).run src tail hsrc
  refine ⟨block, src', ⟨hr.addr, hr.hash, hr.status, hr.invisible, hr.visible, hr.hidden⟩, hrest, ?_⟩
  unfold loadState
  rw [if_neg (by simp [ht.isSealed]), hot.resident.activate, ok_bind, hrun]
  rfl

end Loading

section Observation

theorem twin_parked {t : ThreadSet} (ha : t.activeTid = 1) (hm : t.HasMain) (c : Context) : t.Twin (t.parked c) := by
  obtain ⟨main, hmain⟩ := Option.isSome_iff_exists.mp (isSome_lookup.mpr hm)
  refine .inr ⟨by rw [ha]; exact hm, ⟨main.rax, c.guestRsp, c.threadArea⟩, ?_⟩
  unfold ThreadSet.parked ThreadSet.stale ThreadSet.modifyThread
  rw [ha, adjust_congr hmain]
  rfl

theorem twin_restored {b c d : Block} (hb : b.Exact) (hd : d.Exact) (hk : Compatible b c) (hr : Restored b c d) :
    b.Twin [] d := by
  refine ⟨(hr.addr.trans hk.addr).symm, hb.swappedIn, hd.swappedIn, fun i hi => ?_⟩
  have hc : i < c.npages := hk.npages.symm ▸ hi
  have hn : d.npages = b.npages := by rw [Block.npages, hr.addr, hk.addr]; rfl
  have hinv := (hr.invisible i hc).trans (hk.invisible i hc)
  refine ⟨(hr.status i hc).symm, hinv.symm, hb.native i hi, hd.native i (hn.symm ▸ hi), ?_⟩
  rintro o (hv | ⟨a, ha, -⟩)
  · rw [(hr.visible i hc ((hk.invisible i hc).trans hv)).1]
  · cases ha

theorem twin_self {b : Block} (hb : b.Exact) : b.Twin [] b :=
  ⟨rfl, hb.swappedIn, hb.swappedIn, fun i hi => ⟨rfl, rfl, hb.native i hi, hb.native i hi, fun _ _ => rfl⟩⟩

theorem observe_twin {steps : List GuestStep} (hs : s.Resident) (ht : t.Resident) (he : s.awake.block.Exact)
    (hk : s.toKernel.Twin False t.toKernel) (hb : s.awake.block.Twin [] t.awake.block)
    (hx : ∀ x ∈ steps, x.noFile = true) (hc : s.careful steps = .ok true) : t.observe steps = s.observe steps := by
  unfold careful at hc
  rw [hs.activate, ok_bind] at hc
  have hcareful := Except.ok.inj hc
  rw [Bool.not_eq_true'] at hcareful
  unfold observe
  rw [hs.activate, ht.activate, ok_bind, ok_bind]
  have hleft := outputs_careful (Kernel.Twin.refl False s.awake.toKernel) (twin_self he) hx hcareful
  have hright := outputs_careful (show s.awake.toKernel.Twin False t.awake.toKernel from hk) hb hx hcareful
  rw [← hleft, ← hright]

end Observation

theorem leave_toKernel (g : Host) (a : Bool) : (g.leave a).toKernel = g.toKernel := by
  unfold leave deactivate
  split_ifs
  · rfl
  · rfl
  · rfl

theorem leave_awake (g : Host) (a : Bool) : (g.leave a).awake = g.awake := by
  unfold leave deactivate
  split_ifs
  · rfl
  · rfl
  · rfl

theorem rewind_determinism {img : Image} {tpl : LayoutTemplate} {elf : Elf} {h₀ s t : Host}
    (hmade : hostNew img tpl = .ok (.inr (h₀, elf))) (hlife : ReflTransGen (HostStep elf True) h₀ s)
    (hsealed : s.sealed = true) (hs1 : s.threads.activeTid = 1) (hrun : ReflTransGen (HostStep elf True) s t)
    (ht1 : t.threads.activeTid = 1) :
    ∃ bytes : List UInt8, (∀ w, (∀ k, w.fails k = false) → ∃ s' w', s.saveState w = .ok (0, none, s', w')) ∧
      (∀ w msg s' w', s.saveState w = .ok (0, msg, s', w') → w'.out = w.out ++ bytes) ∧
      ∀ src tail, src.rest = bytes ++ tail →
        ∃ t' src', t.loadState src = .ok (0, none, t', src') ∧ src'.rest = tail ∧
          ∀ steps : List GuestStep, (∀ x ∈ steps, x.noFile = true) → s.careful steps = .ok true →
            t'.observe steps = s.observe steps := by
  obtain ⟨hos, base, hs⟩ := life_sealed hmade hlife hsealed
  obtain ⟨hot, ht, hk⟩ := SealedOn.run hos hs hrun
  refine ⟨s.stateBytes, ?_, ?_, ?_⟩
  · intro w hw
    rcases saveState_spec hos hs hs1 w with ⟨w', hsave, -⟩ | ⟨⟨k, hfail⟩, -⟩
    · exact ⟨_, w', hsave⟩
    · rw [hw k] at hfail
      cases hfail
  · intro w msg s' w' hsave
    exact saveState_out hos hs hs1 hsave
  · intro src tail hsrc
    obtain ⟨block, src', hr, hrest, hload⟩ := loadState_spec hos hot hs ht hk ht1 hsrc
    refine ⟨_, src', hload, hrest, ?_⟩
    intro steps hx hc
    have hstep : HostStep elf True t _ := .load hload
    have hot' := hot.step hstep
    have ht' := (SealedOn.step hot ht hstep).1
    apply observe_twin hos.resident hot'.resident hs.awake.1.exact ?_ ?_ hx hc
    · rw [leave_toKernel]
      exact ⟨rfl, hk.layout.symm, rfl, twin_parked hs1 hos.main s.context, False.elim⟩
    · have hexact := ht'.awake.1.exact
      rw [leave_awake] at hexact ⊢
      exact twin_restored (c := t.block) hs.awake.1.exact hexact
        ⟨hk.kin.addr, hk.kin.invisible⟩ ⟨hr.addr, hr.hash, hr.status, hr.invisible, hr.visible, hr.hidden⟩

section OnePage

variable {a : UInt64} {v : UInt8}

theorem exec_guestRead {b : Block} (h : b.guestRead a = .ok v) : exec (blockMemory.read a) b = (.ok v, b) := by
  change exec (attempt fun b : Block => (b.guestRead a).map (·, b)) b = _
  rw [exec_attempt, h]
  rfl

theorem exec_guestWrite {b b' : Block} (h : b.guestWrite a v = .ok b') : exec (blockMemory.write a v) b = (.ok (), b') := by
  change exec (attempt fun b : Block => (b.guestWrite a v).map ((), ·)) b = _
  rw [exec_attempt, h]
  rfl

theorem next_read {M : Type} {mem : GuestMemory M} {m m' : M} (k : Kernel) (h : exec (mem.read a) m = (.ok v, m')) :
    mem.next (some k, m) (.read a) = (.byte v, some k, m') := by
  have hstep : exec (k.guestStep mem (.read a)) m = (.ok (.byte v, k), m') := exec_bind_ok h
  unfold GuestMemory.next
  dsimp only
  rw [hstep]

theorem observe_read (hr : h.Resident) (hread : h.block.guestRead a = .ok v) : h.observe [.read a] = .ok [.byte v] := by
  have hexec := exec_guestRead (show h.awake.block.guestRead a = .ok v from hread)
  unfold observe
  rw [hr.activate, ok_bind, Runs.outputs, next_read _ hexec]
  rfl

theorem careful_read (hr : h.Resident) (hread : h.block.guestRead a = .ok v)
    (hvisible : (h.block.pages (h.block.pageOf a)).invisible = false) : h.careful [.read a] = .ok true := by
  have hexec : exec (busMemory.read a) ⟨h.awake.block, [], false⟩ = (.ok v, ⟨h.awake.block, [], false⟩) := by
    change exec (attempt fun m : Bus => (m.block.guestRead a).map (·, m.noted a)) ⟨h.awake.block, [], false⟩ = _
    rw [exec_attempt, show h.awake.block.guestRead a = .ok v from hread]
    change (_, Bus.noted ⟨h.awake.block, [], false⟩ a) = _
    rw [Bus.noted, show (h.awake.block.pages (h.awake.block.pageOf a)).invisible = false from hvisible]
    rfl
  unfold careful
  rw [hr.activate, ok_bind, Runs.final, next_read _ hexec]
  rfl

theorem rewind_determinism_onePage : ∃ (tpl : LayoutTemplate) (elf : Elf) (h₀ s t t' : Host) (bytes : List UInt8)
    (src' : Source), hostNew onePageImage tpl = .ok (.inr (h₀, elf)) ∧ ReflTransGen (HostStep elf True) h₀ s ∧
    s.sealed = true ∧ ReflTransGen (HostStep elf True) s t ∧ t.observe [.read 0x36f00000000] = .ok [.byte 9] ∧
    t.loadState ⟨bytes, fun _ => 1, 0⟩ = .ok (0, none, t', src') ∧ src'.rest = [] ∧
    t'.observe [.read 0x36f00000000] = .ok [.byte 0x66] := by
  obtain ⟨elf, h₀, s, hmade, hseal, hsealed, hactive, hthreads, -, hpage⟩ := onePage_sealed
  obtain ⟨hopen, hvisible, hread⟩ := hpage 0x36f00000000 (by decide) (by decide)
  obtain ⟨b, hwrite, hback⟩ := hopen.guestWrite 9
  have hlife : ReflTransGen (HostStep elf True) h₀ s := .single (.sealHost hseal)
  have hstep : exec (s.toKernel.guestStep blockMemory (.write 0x36f00000000 9)) s.block = (.ok (.stored, s.toKernel), b) :=
    exec_bind_ok (exec_guestWrite hwrite)
  have hlater : ReflTransGen (HostStep elf True) s { s with block := b } := .single (.guest hactive hstep)
  have hs1 : s.threads.activeTid = 1 := by
    rw [hthreads]
    rfl
  obtain ⟨hos, base, hs⟩ := life_sealed hmade hlife hsealed
  obtain ⟨hot, -, -⟩ := SealedOn.run hos hs hlater
  obtain ⟨bytes, -, -, hload⟩ := rewind_determinism hmade hlife hsealed hs1 hlater hs1
  obtain ⟨t', src', hloaded, hrest, hsame⟩ := hload ⟨bytes, fun _ => 1, 0⟩ [] (List.append_nil bytes).symm
  refine ⟨_, elf, h₀, s, _, t', bytes, src', hmade, hlife, hsealed, hlater, observe_read hot.resident hback, hloaded,
    hrest, ?_⟩
  rw [hsame _ (by simp [GuestStep.noFile]) (careful_read hos.resident hread hvisible)]
  exact observe_read hos.resident hread

end OnePage

end Host

end MiniBox

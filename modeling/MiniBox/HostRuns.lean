import MiniBox.CarefulRuns
import MiniBox.HeaderRejection
import MiniBox.LoaderCalls
import MiniBox.SaveAndLoad
import MiniBox.ThreadRuns

namespace MiniBox

open ByteStream Effects Outcomes Relation Relational StreamReaders StreamWriters

section Blocks

variable {b b' : Block}

structure Block.Move (b b' : Block) : Prop where
  moves : Moves b b'
  active : b'.active = b.active

theorem MemOp.move {op : MemOp} {r : ℤ} (h : op.run b = .ok (r, b')) : b.Move b' := by
  refine ⟨MemOp.moves h, ?_⟩
  rcases MemOp.run_settles h with rfl | ⟨ps, pc, e, -, -, rfl⟩
  · rfl
  · rfl

theorem guestWrite_move {a : UInt64} {v : UInt8} (h : b.guestWrite a v = .ok b') : b.Move b' := by
  refine ⟨guestWrite_moves h, ?_⟩
  obtain ⟨-, -, rfl⟩ := guestWrite_cases h
  rfl

theorem related_moves (b : Block) :
    Related (fun _ _ => False) (ReflTransGen Block.Move b) blockMemory blockMemory := by
  constructor
  · intro a
    apply lock_attempt (fun _ _ h => h.elim)
    intro c v c' hc h
    cases hv : c.guestRead a <;> rw [hv] at h <;> cases h
    exact hc
  · intro a
    apply lock_attempt (fun _ _ h => h.elim)
    intro c v c' hc h
    cases hv : c.guestFetch a <;> rw [hv] at h <;> cases h
    exact hc
  · intro a v
    apply lock_attempt (fun _ _ h => h.elim)
    intro c u c' hc h
    cases hw : c.guestWrite a v <;> rw [hw] at h <;> cases h
    exact hc.tail (guestWrite_move hw)
  · intro op
    apply lock_attempt (fun _ _ h => h.elim)
    intro c r c' hc h
    exact hc.tail (MemOp.move h)

theorem guestStep_moves {k : Kernel} {x : GuestStep} {r : Except Crash (Seen × Kernel)}
    (h : exec (k.guestStep blockMemory x) b = (r, b')) : ReflTransGen Block.Move b b' := by
  have hstay := (lock_guestStep (related_moves b) (Kernel.Twin.refl True k) x (.inl trivial)).stay b .refl
  rw [h] at hstay
  exact hstay

theorem sealSection_moves {s : SectionInfo} (h : sealSection b s = .ok b') : ReflTransGen Block.Move b b' := by
  unfold sealSection at h
  split_ifs at h
  · obtain ⟨⟨rc, c⟩, hp, h⟩ := bind_ok h
    have hrun : (MemOp.mprotect s.addr.alignExpand .r).run b = .ok (rc, c) := hp
    cases h
    exact .single (MemOp.move hrun)
  · cases h
    exact .refl

theorem elfSeal_moves {elf : Elf} (h : elfSeal elf b = .ok b') : ReflTransGen Block.Move b b' := by
  unfold elfSeal at h
  generalize elf.sections = sections at h
  induction sections generalizing b with
  | nil =>
    cases h
    exact .refl
  | cons s sections ih =>
    obtain ⟨c, hc, h⟩ := bind_ok h
    exact (sealSection_moves hc).trans (ih h)

theorem moves_flags (h : ReflTransGen Block.Move b b') : b'.swappedIn = b.swappedIn ∧ b'.active = b.active :=
  Runs.invariant (P := fun c => c.swappedIn = b.swappedIn ∧ c.active = b.active)
    (fun _ _ hm hi => ⟨hm.moves.swappedIn.trans hi.1, hm.active.trans hi.2⟩) h ⟨rfl, rfl⟩

section Exactness

theorem Block.Exact.moves (he : b.Exact) (h : Moves b b') : b'.Exact := by
  refine ⟨h.swappedIn.trans he.swappedIn, fun i hi => ?_⟩
  have hi' : i < b.npages := h.npages ▸ hi
  have hp := he.native i hi'
  have hmove := h.pages i
  generalize b'.pages i = q at hmove ⊢
  cases hmove with
  | same => exact hp
  | edit e hne =>
    rw [Block.sync, if_pos he.swappedIn]
    exact Page.Exact.refresh _
  | write o v hs hw => exact hp.written o v

theorem exact_sealBlock {r : ℤ} (hs : b.swappedIn = true) (hu : b.sealed = false) (h : b.sealBlock = .ok (r, b')) :
    b'.Exact := by
  obtain ⟨-, ha, -, hs', hp⟩ := sealBlock_cases hu h
  have hn : b'.npages = b.npages := by rw [Block.npages, ha]; rfl
  refine ⟨hs'.trans hs, fun i hi => ?_⟩
  rw [hp i (hn ▸ hi), Block.sync, if_pos hs]
  exact Page.Exact.refresh _

theorem Block.Exact.load (he : b.Exact) {s s' : Source} (h : b.loadState s = .ok (0, b', s')) : b'.Exact := by
  obtain ⟨-, l, rfl, rfl, -⟩ := loadState_done h
  refine ⟨he.swappedIn, fun i hi => ?_⟩
  have hi' : i < l.block.npages := hi
  rw [l.flushed_page hi']
  unfold Pass.settled
  split_ifs with hc
  · rw [Block.sync, if_pos he.swappedIn]
    exact Page.Exact.refresh _
  · have hsame : (l.after i).nativeProt = (l.block.pages i).nativeProt := by simpa [Pass.changed] using hc
    have hn : (l.after i).native = (l.block.pages i).native := Page.load_native _ _ _
    rw [Page.Exact, hn, hsame]
    exact he.native i hi'

end Exactness

theorem moves_raw (hr : b.Raw) (h : ReflTransGen Block.Move b b') : b'.Raw :=
  Runs.invariant (P := Block.Raw) (fun _ _ hm hr => hr.moves hm.moves) h hr

theorem moves_sealed {base : ℕ → PageData} (ht : b.Tracks base) (he : b.Exact) (h : ReflTransGen Block.Move b b') :
    b'.Tracks base ∧ b'.Exact ∧ Kin b b' :=
  Runs.invariant (P := fun c => c.Tracks base ∧ c.Exact ∧ Kin b c)
    (fun _ _ hm hi => ⟨hi.1.moves hm.moves, hi.2.1.moves hm.moves, hi.2.2.trans hm.moves.kin⟩) h ⟨ht, he, .refl b⟩

end Blocks

/-- One step in the life of a host with this image; a failed load poisons it and ends its life.
Files are mounted and unmounted only where `mounts` allows it. -/
inductive HostStep (elf : Elf) (mounts : Prop) : Host → Host → Prop
  | guest {h : Host} {x : GuestStep} {seen : Seen} {k : Kernel} {b : Block} : h.active = true →
      exec (h.toKernel.guestStep blockMemory x) h.block = (.ok (seen, k), b) →
      HostStep elf mounts h { h with toKernel := k, block := b }
  | activate {h h' : Host} : h.activate = .ok h' → HostStep elf mounts h h'
  | deactivate {h : Host} : HostStep elf mounts h h.deactivate
  | elfSeal {h : Host} {b : Block} : h.sealed = false → elfSeal elf h.block = .ok b →
      HostStep elf mounts h { h with block := b }
  | sealHost {h h' : Host} {rc : ℤ} {msg : Option String} : h.sealHost = .ok (rc, msg, h') → HostStep elf mounts h h'
  | mount {h : Host} {name data : List UInt8} {writable : Bool} : mounts →
      HostStep elf mounts h (h.mount name data writable).2
  | unmount {h : Host} {name : List UInt8} : mounts → HostStep elf mounts h (h.unmount name).2.2
  | save {h h' : Host} {rc : ℤ} {msg : Option String} {w w' : Sink} :
      h.saveState w = .ok (rc, msg, h', w') → HostStep elf mounts h h'
  | load {h h' : Host} {msg : Option String} {src src' : Source} :
      h.loadState src = .ok (0, msg, h', src') → HostStep elf mounts h h'

namespace Host

variable {h h' : Host}

section Calls

structure Shelved (h h' : Host) : Prop where
  storable : h'.threads.Storable
  main : h'.threads.HasMain
  rest : h' = { h with threads := h'.threads }

theorem spares_saveBody : Spares saveBody h.Shelved := by
  apply maintains_bind (spares_putting _)
  intro _
  apply maintains_bind (spares_putting _)
  intro _
  apply maintains_bind (spares_putting _)
  intro _
  apply maintains_bind (spares_putting _)
  intro _
  apply maintains_bind (spares_putting _)
  intro _
  apply maintains_bind (spares_putting _)
  intro _
  apply maintains_bind
  · apply spares_handing
    intro st w rc st' w' hb hst
    cases hb
    have hsame : (st.block.saveState w).2.1 = st.block := by
      unfold Block.saveState
      split_ifs
      · rcases w.putAll st.block.saveChunks with ⟨_ | _, w'⟩
        · rfl
        · rfl
      · rfl
    rw [hsame]
    exact hst
  intro _
  apply maintains_bind
  · apply spares_handing
    intro st w rc st' w' hb hst
    obtain ⟨⟨code, threads, w₁⟩, hsave, hb⟩ := bind_ok hb
    cases hb
    rcases ThreadSet.save_cases_any hsave with rfl | rfl
    · exact hst
    · refine ⟨hst.storable.modifyThread (by intro; rfl), hst.main.modifyThread _ (by intro; rfl), ?_⟩
      rw [hst.rest]
  intro _
  exact spares_putting _

theorem Shelved.leave (hr : h.Resident) (hs : h.awake.Shelved h') : h.Shelved (h'.leave h.active) := by
  have hleave : h'.leave h.active = { h with threads := h'.threads } := by
    rw [hs.rest]
    exact Resident.leave (h := { h with threads := h'.threads }) ⟨hr.swappedIn, hr.active⟩
  rw [hleave]
  exact ⟨hs.storable, hs.main, rfl⟩

theorem shelved_saveState {rc : ℤ} {msg : Option String} {w w' : Sink} (hr : h.Resident) (ht : h.threads.Storable)
    (hm : h.threads.HasMain) (hsave : h.saveState w = .ok (rc, msg, h', w')) : h.Shelved h' := by
  unfold saveState at hsave
  split_ifs at hsave
  · cases hsave
    exact ⟨ht, hm, rfl⟩
  rw [hr.activate, ok_bind] at hsave
  have hbody := (spares_saveBody (h := h.awake)).state (h.awake, w) ⟨ht, hm, rfl⟩
  split at hsave
  · rename_i hx
    rw [hx] at hbody
    cases hsave
    exact Shelved.leave hr hbody
  · rename_i hx
    rw [hx] at hbody
    cases hsave
    exact Shelved.leave hr hbody
  · cases hsave

theorem turns_blaming {α : Type} (msg : String) {x : Reader Crash Loading α} {R : Loading → Loading → Prop}
    (hx : Turns x R) : Turns (blaming msg x) R := by
  constructor
  intro l src a l' src' hrun
  rw [exec_blaming] at hrun
  split at hrun
  · cases hrun
  · exact hx.run l src a l' src' hrun

structure Replaced (h h' : Host) : Prop where
  block : ∃ src src', h.block.loadState src = .ok (0, h'.block, src')
  threads : ∃ src src', h.threads.load h.context src = .ok (0, h'.threads, h'.context, src')
  rest : h' = { h with programBreak := h'.programBreak, block := h'.block, threads := h'.threads, context := h'.context }

theorem turns_loadImage : Turns loadImage fun l l' => l.host.Replaced l'.host := by
  apply turns_skip (turns_blaming _ (turns_expect _))
  intro _
  apply turns_skip (turns_reading fun _ _ => rfl)
  intro raw
  have hcheck : Turns (checkElfHash raw) Eq := by
    apply turns_calling
    intro l src l' src' hl
    exact (congrArg (fun r : ℤ × Loading × Source => r.2.1) (Except.ok.inj hl))
  apply turns_skip (turns_blaming _ hcheck)
  intro _
  have hblock : Turns loadBlock fun l l' => ∃ block, (∃ src src', l.host.block.loadState src = .ok (0, block, src')) ∧
      l' = { l with host := { l.host with block } } := by
    apply turns_calling
    intro l src l' src' hl
    obtain ⟨⟨rc, block, src₁⟩, hload, hl⟩ := bind_ok hl
    cases hl
    exact ⟨block, ⟨src, src', hload⟩, rfl⟩
  have hthreads : Turns loadThreads fun l l' => ∃ threads context,
      (∃ src src', l.host.threads.load l.host.context src = .ok (0, threads, context, src')) ∧
      l' = { l with host := { l.host with threads, context } } := by
    apply turns_calling
    intro l src l' src' hl
    obtain ⟨⟨rc, threads, context, src₁⟩, hload, hl⟩ := bind_ok hl
    cases hl
    exact ⟨threads, context, ⟨src, src', hload⟩, rfl⟩
  have hend := turns_blaming "bad end magic" (turns_expect (ε := Crash) (σ := Loading) saveEnd)
  have hall := turns_bind (turns_blaming "memory block load failed" hblock) fun _ =>
    turns_bind (turns_blaming "thread set load failed" hthreads) fun _ => hend
  constructor
  intro l src a l' src' hrun
  obtain ⟨l₁, ⟨block, hb, rfl⟩, l₂, ⟨threads, context, ht, rfl⟩, rfl⟩ := hall.run l src a l' src' hrun
  exact ⟨hb, ht, rfl⟩

theorem turns_loadBody : Turns loadBody fun l l' => l.host.Replaced l'.host := by
  rw [loadBody_eq]
  apply turns_skip (turns_blaming _ (turns_expect _))
  intro _
  apply turns_skip (turns_blaming _ (turns_expect _))
  intro _
  apply turns_skip (turns_blaming _ (turns_expect _))
  intro _
  constructor
  intro l src a l' src' hrun
  have hbreak : Turns loadBreak fun l l' => ∃ v, l' = { l with host := { l.host with programBreak := v } } :=
    turns_reading fun l v => ⟨v, rfl⟩
  obtain ⟨l₁, ⟨v, rfl⟩, hr⟩ := (turns_bind hbreak fun _ => turns_loadImage).run l src a l' src' hrun
  exact ⟨hr.block, hr.threads, hr.rest⟩

theorem loadState_cases {msg : Option String} {src src' : Source} (hr : h.Resident)
    (hload : h.loadState src = .ok (0, msg, h', src')) :
    h.sealed = true ∧ ∃ g, h.awake.Replaced g ∧ h' = g.leave h.active := by
  unfold loadState at hload
  split_ifs at hload with hs
  · cases hload
  refine ⟨by simpa using hs, ?_⟩
  rw [hr.activate, ok_bind] at hload
  split at hload
  · rename_i hx
    cases hload
    exact ⟨_, turns_loadBody.run _ _ _ _ _ hx, rfl⟩
  · cases hload
  · cases hload

theorem sealHost_cases {rc : ℤ} {msg : Option String} (hseal : h.sealHost = .ok (rc, msg, h')) :
    h' = h ∨ ∃ code block, h.sealed = false ∧ h.block.sealBlock = .ok (code, block) ∧
      (code ≠ 0 ∧ h' = { h with block } ∨ code = 0 ∧ h' = { h with block, sealed := true }) := by
  unfold sealHost at hseal
  split_ifs at hseal with hs
  · cases hseal
    exact .inl rfl
  obtain ⟨⟨code, block⟩, hb, hseal⟩ := bind_ok hseal
  refine .inr ⟨code, block, by simpa using hs, hb, ?_⟩
  dsimp only at hseal
  split_ifs at hseal with hc
  · cases hseal
    exact .inl ⟨hc, rfl⟩
  · cases hseal
    exact .inr ⟨not_not.mp hc, rfl⟩

end Calls

section Invariants

variable {elf : Elf} {mounts : Prop} {base : ℕ → PageData}

structure Orderly (h : Host) : Prop where
  resident : h.Resident
  storable : h.threads.Storable
  main : h.threads.HasMain

theorem Orderly.deactivate (ho : h.Orderly) : h.deactivate.Orderly := by
  unfold Host.deactivate
  split_ifs
  · exact ⟨⟨ho.resident.swappedIn, rfl⟩, ho.storable, ho.main⟩
  · exact ho

theorem Orderly.leave (ho : h.Orderly) (wasActive : Bool) : (h.leave wasActive).Orderly := by
  unfold Host.leave
  split_ifs
  · exact ho
  · exact ho.deactivate

theorem Replaced.orderly (hr : h.Replaced h') (ho : h.Orderly) : h'.Orderly := by
  obtain ⟨src, src', hb⟩ := hr.block
  obtain ⟨src₁, src₁', ht⟩ := hr.threads
  obtain ⟨-, l, hl, hg, -⟩ := loadState_done hb
  have hactive : h'.active = h.active := by rw [hr.rest]
  refine ⟨⟨?_, ?_⟩, ho.storable.load ht, ThreadSet.hasMain_load ht⟩
  · rw [hg]
    change l.block.swappedIn = true
    rw [hl]
    exact ho.resident.swappedIn
  · rw [hg, hactive]
    change l.block.active = h.active
    rw [hl]
    exact ho.resident.active

theorem Orderly.awake (ho : h.Orderly) : h.awake.Orderly := ⟨⟨ho.resident.swappedIn, rfl⟩, ho.storable, ho.main⟩

theorem Orderly.step (ho : h.Orderly) (hs : HostStep elf mounts h h') : h'.Orderly := by
  obtain ⟨hr, ht, hm⟩ := ho
  cases hs with
  | guest ha hx =>
    obtain ⟨hin, hact⟩ := moves_flags (guestStep_moves hx)
    have hk := ((Kernel.guestStep_step _).answer _ _ _ hx).threadStep
    exact ⟨⟨hin.trans hr.swappedIn, hact.trans hr.active⟩, ht.step hk, hm.step hk⟩
  | activate ha =>
    rw [hr.activate] at ha
    cases ha
    exact Orderly.awake ⟨hr, ht, hm⟩
  | deactivate => exact Orderly.deactivate ⟨hr, ht, hm⟩
  | elfSeal hs hb =>
    obtain ⟨hin, hact⟩ := moves_flags (elfSeal_moves hb)
    exact ⟨⟨hin.trans hr.swappedIn, hact.trans hr.active⟩, ht, hm⟩
  | sealHost hb =>
    have hr' := hr.sealHost hb
    rcases sealHost_cases hb with rfl | ⟨code, block, -, -, ⟨-, rfl⟩ | ⟨-, rfl⟩⟩
    · exact ⟨hr, ht, hm⟩
    · exact ⟨hr', ht, hm⟩
    · exact ⟨hr', ht, hm⟩
  | mount _ => exact ⟨⟨hr.swappedIn, hr.active⟩, ht, hm⟩
  | unmount _ => exact ⟨⟨hr.swappedIn, hr.active⟩, ht, hm⟩
  | save hsave =>
    obtain ⟨ht', hm', hrest⟩ := shelved_saveState hr ht hm hsave
    refine ⟨?_, ht', hm'⟩
    rw [hrest]
    exact ⟨hr.swappedIn, hr.active⟩
  | load hload =>
    obtain ⟨-, g, hrep, rfl⟩ := loadState_cases hr hload
    exact (hrep.orderly (Orderly.awake ⟨hr, ht, hm⟩)).leave _

structure Unsealed (h : Host) : Prop where
  unsealed : h.sealed = false
  raw : h.block.Raw

structure SealedOn (base : ℕ → PageData) (h : Host) : Prop where
  isSealed : h.sealed = true
  tracks : h.block.Tracks base
  exact : h.block.Exact

structure Akin (h h' : Host) : Prop where
  kin : Kin h.block h'.block
  layout : h'.layout = h.layout
  elfHash : h'.elfHash = h.elfHash

theorem Akin.refl (h : Host) : h.Akin h := ⟨.refl _, rfl, rfl⟩

theorem Akin.trans {h'' : Host} (ha : h.Akin h') (ha' : h'.Akin h'') : h.Akin h'' :=
  ⟨ha.kin.trans ha'.kin, ha'.layout.trans ha.layout, ha'.elfHash.trans ha.elfHash⟩

theorem Unsealed.step (ho : h.Orderly) (hu : h.Unsealed) (hs : HostStep elf mounts h h') :
    h'.Unsealed ∨ ∃ base, h'.SealedOn base := by
  obtain ⟨hns, hraw⟩ := hu
  cases hs with
  | guest ha hx => exact .inl ⟨hns, moves_raw hraw (guestStep_moves hx)⟩
  | activate ha =>
    rw [ho.resident.activate] at ha
    cases ha
    exact .inl ⟨hns, hraw.unsealed, hraw.raw⟩
  | deactivate =>
    unfold Host.deactivate
    split_ifs
    · exact .inl ⟨hns, hraw.unsealed, hraw.raw⟩
    · exact .inl ⟨hns, hraw⟩
  | elfSeal _ hb => exact .inl ⟨hns, moves_raw hraw (elfSeal_moves hb)⟩
  | sealHost hb =>
    rcases sealHost_cases hb with rfl | ⟨code, block, -, hseal, ⟨hc, rfl⟩ | ⟨-, rfl⟩⟩
    · exact .inl ⟨hns, hraw⟩
    · exact absurd (sealBlock_cases hraw.unsealed hseal).1 hc
    · exact .inr ⟨_, rfl, hraw.sealBlock hseal, exact_sealBlock ho.resident.swappedIn hraw.unsealed hseal⟩
  | mount _ => exact .inl ⟨hns, hraw⟩
  | unmount _ => exact .inl ⟨hns, hraw⟩
  | save hsave =>
    have hrest := (shelved_saveState ho.resident ho.storable ho.main hsave).rest
    rw [hrest]
    exact .inl ⟨hns, hraw⟩
  | load hload =>
    rw [(loadState_cases ho.resident hload).1] at hns
    cases hns

theorem SealedOn.deactivate (hs : h.SealedOn base) : h.deactivate.SealedOn base ∧ h.Akin h.deactivate := by
  unfold Host.deactivate
  split_ifs
  · refine ⟨⟨hs.isSealed, ?_, ?_⟩, ?_, rfl, rfl⟩
    · exact hs.tracks.switch .deactivate
    · exact ⟨hs.exact.swappedIn, hs.exact.native⟩
    · exact Switch.deactivate.kin
  · exact ⟨hs, .refl h⟩

theorem SealedOn.leave (hs : h.SealedOn base) (wasActive : Bool) :
    (h.leave wasActive).SealedOn base ∧ h.Akin (h.leave wasActive) := by
  unfold Host.leave
  split_ifs
  · exact ⟨hs, .refl h⟩
  · exact hs.deactivate

theorem SealedOn.awake (hs : h.SealedOn base) : h.awake.SealedOn base ∧ h.Akin h.awake :=
  ⟨⟨hs.isSealed, ⟨hs.tracks.isSealed, hs.tracks.tracks, hs.tracks.guarded⟩, hs.exact.swappedIn, hs.exact.native⟩,
    ⟨⟨rfl, fun _ _ => rfl⟩, rfl⟩, rfl, rfl⟩

theorem Replaced.sealedOn (hr : h.Replaced h') (hs : h.SealedOn base) : h'.SealedOn base ∧ h.Akin h' := by
  obtain ⟨src, src', hb⟩ := hr.block
  refine ⟨⟨?_, hs.tracks.load hb, hs.exact.load hb⟩, kin_load hs.tracks hb, ?_, ?_⟩
  · rw [hr.rest]
    exact hs.isSealed
  · rw [hr.rest]
  · rw [hr.rest]

theorem SealedOn.step (ho : h.Orderly) (hs : h.SealedOn base) (hstep : HostStep elf mounts h h') :
    h'.SealedOn base ∧ h.Akin h' := by
  cases hstep with
  | guest ha hx =>
    obtain ⟨ht, he, hk⟩ := moves_sealed hs.tracks hs.exact (guestStep_moves hx)
    exact ⟨⟨hs.isSealed, ht, he⟩, hk, ((Kernel.guestStep_step _).answer _ _ _ hx).layout, rfl⟩
  | activate ha =>
    rw [ho.resident.activate] at ha
    cases ha
    exact hs.awake
  | deactivate => exact hs.deactivate
  | elfSeal hu hb =>
    rw [hs.isSealed] at hu
    cases hu
  | sealHost hb =>
    rcases sealHost_cases hb with rfl | ⟨code, block, hu, -⟩
    · exact ⟨hs, .refl _⟩
    · rw [hs.isSealed] at hu
      cases hu
  | mount _ => exact ⟨⟨hs.isSealed, hs.tracks, hs.exact⟩, .refl _, rfl, rfl⟩
  | unmount _ => exact ⟨⟨hs.isSealed, hs.tracks, hs.exact⟩, .refl _, rfl, rfl⟩
  | save hsave =>
    have hrest := (shelved_saveState ho.resident ho.storable ho.main hsave).rest
    rw [hrest]
    exact ⟨⟨hs.isSealed, hs.tracks, hs.exact⟩, .refl _, rfl, rfl⟩
  | load hload =>
    obtain ⟨-, g, hrep, rfl⟩ := loadState_cases ho.resident hload
    obtain ⟨hawake, hk⟩ := hs.awake
    obtain ⟨hg, hkg⟩ := hrep.sealedOn hawake
    obtain ⟨hl, hkl⟩ := hg.leave h.active
    exact ⟨hl, hk.trans (hkg.trans hkl)⟩

theorem SealedOn.run (ho : h.Orderly) (hs : h.SealedOn base) (hrun : ReflTransGen (HostStep elf mounts) h h') :
    h'.Orderly ∧ h'.SealedOn base ∧ h.Akin h' :=
  Runs.invariant (P := fun g => g.Orderly ∧ g.SealedOn base ∧ h.Akin g)
    (fun _ _ hstep hi => ⟨hi.1.step hstep, (SealedOn.step hi.1 hi.2.1 hstep).1,
      hi.2.2.trans (SealedOn.step hi.1 hi.2.1 hstep).2⟩) hrun ⟨ho, hs, .refl h⟩

theorem life_run (ho : h.Orderly) (hu : h.Unsealed) (hrun : ReflTransGen (HostStep elf mounts) h h') :
    h'.Orderly ∧ (h'.Unsealed ∨ ∃ base, h'.SealedOn base) := by
  refine Runs.invariant (P := fun g => g.Orderly ∧ (g.Unsealed ∨ ∃ base, g.SealedOn base)) ?_ hrun ⟨ho, .inl hu⟩
  rintro g g' hstep ⟨hog, hug | ⟨base, hsg⟩⟩
  · exact ⟨hog.step hstep, hug.step hog hstep⟩
  · exact ⟨hog.step hstep, .inr ⟨base, (SealedOn.step hog hsg hstep).1⟩⟩

end Invariants

section Start

theorem setupMove_raw {b b' : Block} {rc : ℤ} (h : SetupMove b rc b') (hr : b.Raw) :
    b'.Raw ∧ b'.swappedIn = b.swappedIn ∧ b'.active = b.active := by
  cases h with
  | memory hrun =>
    have hm := MemOp.move hrun
    exact ⟨hr.moves hm.moves, hm.moves.swappedIn, hm.active⟩
  | hide hrun =>
    refine ⟨hr.markInvisible hrun, ?_⟩
    rcases markInvisible_cases hrun with rfl | ⟨ps, pc, -, rfl⟩
    · exact ⟨rfl, rfl⟩
    · exact ⟨rfl, rfl⟩
  | copy hrun =>
    refine ⟨hr.copyFromExternal hrun, ?_⟩
    rcases copyFromExternal_cases hrun with rfl | ⟨ps, pc, -, -, f, rfl⟩
    · exact ⟨rfl, rfl⟩
    · exact ⟨rfl, rfl⟩

theorem hostNew_start {img : Image} {tpl : LayoutTemplate} {elf : Elf} (hmade : hostNew img tpl = .ok (.inr (h, elf))) :
    h.Orderly ∧ h.Unsealed := by
  obtain ⟨span, h₀, s, -, hcreate, hload, rfl⟩ := hostNew_cases hmade
  have hres := resident_create hcreate
  obtain ⟨b₀, b, layout, -, hnew, hb, rfl⟩ := create_cases hcreate
  have hraw : b.Raw := (raw_new hnew).switch (.activate hb)
  have hkeep : s.block.Raw ∧ s.block.swappedIn = b.swappedIn ∧ s.block.active = b.active := by
    refine elfLoad_keeps (P := fun c => c.Raw ∧ c.swappedIn = b.swappedIn ∧ c.active = b.active) ?_
      ⟨hraw, rfl, rfl⟩ hload
    rintro c rc c' hmove ⟨h1, h2, h3⟩
    obtain ⟨h1', h2', h3'⟩ := setupMove_raw hmove h1
    exact ⟨h1', h2'.trans h2, h3'.trans h3⟩
  obtain ⟨h1, h2, h3⟩ := hkeep
  refine ⟨⟨⟨h2.trans hres.swappedIn, h3.trans hres.active⟩, ThreadSet.storable_new, ?_⟩, rfl, h1⟩
  exact List.mem_singleton_self 1

theorem life_sealed {img : Image} {tpl : LayoutTemplate} {elf : Elf} {h₀ s : Host}
    (hmade : hostNew img tpl = .ok (.inr (h₀, elf))) (hlife : ReflTransGen (HostStep elf mounts) h₀ s)
    (hsealed : s.sealed = true) : s.Orderly ∧ ∃ base, s.SealedOn base := by
  obtain ⟨hstart, hunsealed⟩ := hostNew_start hmade
  obtain ⟨hos, hstage⟩ := life_run hstart hunsealed hlife
  rcases hstage with hu | hs
  · rw [hu.unsealed] at hsealed
    cases hsealed
  · exact ⟨hos, hs⟩

end Start

end Host

end MiniBox

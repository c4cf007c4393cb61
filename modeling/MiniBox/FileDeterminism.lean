import MiniBox.FileRefinement

namespace MiniBox

open ByteStream LinearTables Outcomes

def FsEvent.filled (junk : ℕ → UInt8) : FsEvent → FsEvent
  | .call (.truncateName _ name size) => .call (.truncateName junk name size)
  | .call (.truncateFd _ fd size) => .call (.truncateFd junk fd size)
  | e => e

def FsEvent.Addressable : FsEvent → Prop
  | .mount _ data _ => data.length < 2 ^ 63
  | .call (.read _ n) => n < 2 ^ 64
  | .call (.write _ buf) => buf.length < 2 ^ 63
  | _ => True

namespace RawFs

def play (junks : ℕ → ℕ → UInt8) (fs : RawFs) : List FsEvent → Except Crash (List FsReply × RawFs)
  | [] => .ok ([], fs)
  | e :: es => do
    let (r, fs) ← fs.event (junks 0) (e.filled (junks 0))
    let (rs, fs) ← fs.play (fun i => junks (i + 1)) es
    return (r :: rs, fs)

def contents (fs : RawFs) : List (List UInt8 × List UInt8) :=
  fs.files.map fun f => (f.name, if f.kind = .regular then f.data.take f.len.toNat else [])

def shown (junks : ℕ → ℕ → UInt8) (events : List FsEvent) :
    Except Crash (List (UInt64 × List UInt8) × List (List UInt8 × List UInt8)) :=
  (new.play junks events).map fun out => (out.1.map FsReply.seen, out.2.contents)

def enlarges (fs : RawFs) (name : List UInt8) (size : ℤ) : Bool :=
  (fs.byName name).any fun f => decide (f.kind = .regular) && f.writable && decide ((f.len.toNat : ℤ) < size)

def grows (fs : RawFs) : FsEvent → Bool
  | .call (.truncateName _ name size) => fs.enlarges name size
  | .call (.truncateFd _ fd size) => (fs.byFd fd).any fun f => fs.enlarges f.name size
  | _ => false

def steady (junks : ℕ → ℕ → UInt8) (fs : RawFs) : List FsEvent → Bool
  | [] => true
  | e :: es => !fs.grows e &&
    match fs.event (junks 0) (e.filled (junks 0)) with
    | .ok (_, fs) => fs.steady (fun i => junks (i + 1)) es
    | .error _ => true

end RawFs

section Step

variable {raw raw' : RawFs} {fs : Fs} {e : FsEvent}

theorem resize_of_le (junk junk' : ℕ → UInt8) {f : MountedFile} {n : ℕ} (h : n ≤ f.data.length) :
    f.resize junk n = f.resize junk' n := by
  simp [MountedFile.resize, Nat.sub_eq_zero_of_le h]

theorem truncateName_junk (junk junk' : ℕ → UInt8) {name : List UInt8} {size : ℤ}
    (h : ∀ f, fs.byName name = some f → f.kind = .regular → f.writable = true → size ≤ f.data.length) :
    fs.truncateName junk name size = fs.truncateName junk' name size := by
  unfold Fs.truncateName
  cases hf : fs.byName name with
  | none => rfl
  | some f =>
    dsimp only
    split_ifs with hbad
    · rfl
    · push Not at hbad
      have hle := h f hf hbad.1 (by simpa using hbad.2.1)
      have hsame : fs.modifyName name (.resize junk size.toNat) = fs.modifyName name (.resize junk' size.toNat) :=
        congrArg Fs.mk (adjust_congr hf (resize_of_le junk junk' (by omega)))
      rw [hsame]

theorem Holds.le_of_steady (h : Holds raw fs) {name : List UInt8} {size : ℤ}
    (hno : raw.enlarges name size = false) :
    ∀ f, fs.byName name = some f → f.kind = .regular → f.writable = true → size ≤ f.data.length := by
  intro f hf hk hw
  rcases h.byName name with ⟨-, hnone⟩ | ⟨r, g, hr, hg, hs⟩
  · rw [hf] at hnone
    cases hnone
  · rw [hf] at hg
    cases hg
    simpa [RawFs.enlarges, hr, hs.kind, hk, hs.writable, hw, hs.len] using hno

theorem twin_found {x x' : Option RawFile} {y : Option MountedFile}
    (h : x = none ∧ y = none ∨ ∃ r f, x = some r ∧ y = some f ∧ Stores r f)
    (h' : x' = none ∧ y = none ∨ ∃ r f, x' = some r ∧ y = some f ∧ Stores r f) :
    x = none ∧ x' = none ∨ ∃ r r' f, x = some r ∧ x' = some r' ∧ Stores r f ∧ Stores r' f := by
  rcases h with ⟨hr, rfl⟩ | ⟨r, f, hr, rfl, hs⟩
  · rcases h' with ⟨hr', -⟩ | ⟨r', f', -, hf', -⟩
    · exact .inl ⟨hr, hr'⟩
    · cases hf'
  · rcases h' with ⟨-, hf'⟩ | ⟨r', f', hr', hf', hs'⟩
    · cases hf'
    · cases hf'
      exact .inr ⟨r, r', f, hr, hr', hs, hs'⟩

theorem twin_enlarges (h : Holds raw fs) (h' : Holds raw' fs) (name : List UInt8) (size : ℤ) :
    raw.enlarges name size = raw'.enlarges name size := by
  rcases twin_found (h.byName name) (h'.byName name) with ⟨hr, hr'⟩ | ⟨r, r', f, hr, hr', hs, hs'⟩
  · rw [RawFs.enlarges, RawFs.enlarges, hr, hr']
  · simp only [RawFs.enlarges, hr, hr', Option.any_some, hs.kind, hs'.kind, hs.writable, hs'.writable, hs.len, hs'.len]

theorem twin_grows (h : Holds raw fs) (h' : Holds raw' fs) : raw.grows e = raw'.grows e := by
  cases e with
  | mount name data writable => rfl
  | unmount name => rfl
  | call c =>
    cases c with
    | truncateName junk name size => exact twin_enlarges h h' name size
    | truncateFd junk fd size =>
      simp only [RawFs.grows]
      rcases twin_found (h.byFd fd) (h'.byFd fd) with ⟨hr, hr'⟩ | ⟨r, r', f, hr, hr', hs, hs'⟩
      · rw [hr, hr']
        rfl
      · rw [hr, hr', Option.any_some, Option.any_some, hs.name, hs'.name]
        exact twin_enlarges h h' f.name size
    | _ => rfl

theorem Holds.filled (h : Holds raw fs) (hsound : fs.Sound) (ha : e.Addressable) (hno : raw.grows e = false)
    (junk : ℕ → UInt8) : Concurs raw (raw.event junk (e.filled junk)) (fs.event (e.filled fun _ => 0)) := by
  cases e with
  | mount name data writable => exact h.event hsound _ (Nat.lt_trans ha (by decide))
  | unmount name => exact h.event hsound _ trivial
  | call c =>
    cases c with
    | «open» name flags => exact h.event hsound _ trivial
    | close fd => exact h.event hsound _ trivial
    | read fd n => exact h.event hsound _ ha
    | write fd buf =>
      apply h.event hsound
      intro f hf
      have ha' : buf.length < 2 ^ 63 := ha
      rcases h.byFd fd with ⟨-, hnone⟩ | ⟨r, g, -, hg, hs⟩
      · rw [hf] at hnone
        cases hnone
      · rw [hf] at hg
        cases hg
        have hpos := f.inBounds
        have hsmall := hs.small
        omega
    | seek fd offset whence => exact h.event hsound _ trivial
    | statName name => exact h.event hsound _ trivial
    | statFd fd => exact h.event hsound _ trivial
    | truncateName _ name size =>
      have hle := h.le_of_steady hno
      have hcut := h.truncateName junk name size hle
      rw [truncateName_junk junk (fun _ => 0) hle] at hcut
      exact hcut
    | truncateFd _ fd size =>
      simp only [FsEvent.filled, RawFs.event, RawFs.truncateFd, Fs.event, Fs.call, Fs.truncateFd]
      rcases h.byFd fd with ⟨hr, hf⟩ | ⟨r, f, hr, hf, hs⟩
      · rw [hr, hf]
        exact concurs_same ⟨-enoent, []⟩ h
      · rw [hr, hf]
        dsimp only
        have hle := h.le_of_steady (show raw.enlarges r.name size = false by simpa [RawFs.grows, hr] using hno)
        have hcut := h.truncateName junk r.name size hle
        rw [truncateName_junk junk (fun _ => 0) hle] at hcut
        rw [← hs.name]
        exact hcut

theorem Holds.small (h : Holds raw fs) : ∀ f ∈ fs.files, f.data.length < 2 ^ 63 := by
  intro f hf
  obtain ⟨r, -, hs⟩ := mem_related h.flip hf
  exact hs.small

theorem twin_event (h : Holds raw fs) (h' : Holds raw' fs) (hsound : fs.Sound) (ha : e.Addressable)
    (hno : raw.grows e = false) (junk junk' : ℕ → UInt8) :
    (∃ c c' raw₁ raw₁' fs₁, raw.event junk (e.filled junk) = .ok (c, raw₁) ∧
      raw'.event junk' (e.filled junk') = .ok (c', raw₁') ∧ c.seen = c'.seen ∧
      Holds raw₁ fs₁ ∧ Holds raw₁' fs₁ ∧ fs₁.Sound) ∨
    ∃ x, raw.event junk (e.filled junk) = .error x ∧ raw'.event junk' (e.filled junk') = .error x := by
  rcases h.filled hsound ha hno junk with ⟨c, r, raw₁, fs₁, hev, hfs, hseen, h₁, -⟩ | ⟨hdead, r, fs₁, hfs, f, hf, hbig⟩
  · rcases h'.filled hsound ha (twin_grows h h' ▸ hno) junk' with
      ⟨c', r', raw₁', fs₁', hev', hfs', hseen', h₁', -⟩ | ⟨-, r', fs₁', hfs', f, hf, hbig⟩
    · rw [hfs] at hfs'
      cases hfs'
      exact .inl ⟨c, c', raw₁, raw₁', fs₁, hev, hev', hseen.trans hseen'.symm, h₁, h₁',
        (Fs.event_edit hsound hfs).sound hsound⟩
    · rw [hfs] at hfs'
      cases hfs'
      exact absurd (h₁.small f hf) (not_lt.mpr hbig)
  · rcases h'.filled hsound ha (twin_grows h h' ▸ hno) junk' with
      ⟨c', r', raw₁', fs₁', hev', hfs', hseen', h₁', -⟩ | ⟨hdead', -⟩
    · rw [hfs] at hfs'
      cases hfs'
      exact absurd (h₁'.small f hf) (not_lt.mpr hbig)
    · exact .inr ⟨_, hdead, hdead'⟩

end Step

section Runs

variable {raw raw' : RawFs} {fs : Fs}

theorem Stores.take_len {r : RawFile} {f : MountedFile} (h : Stores r f) (hk : f.kind = .regular) :
    r.data.take r.len.toNat = f.data := by
  obtain ⟨rest, hrest⟩ := h.block hk
  rw [hrest, h.len, List.take_left]

theorem Holds.contents (h : Holds raw fs) :
    raw.contents = fs.files.map fun f => (f.name, if f.kind = .regular then f.data else []) := by
  apply map_related h
  intro r f hs
  rw [hs.name, hs.kind]
  split_ifs with hk
  · rw [hs.take_len hk]
  · rfl

theorem twin_play {events : List FsEvent} (h : Holds raw fs) (h' : Holds raw' fs) (hsound : fs.Sound)
    (ha : ∀ e ∈ events, e.Addressable) (junks junks' : ℕ → ℕ → UInt8) (hsteady : raw.steady junks events = true) :
    (raw.play junks events).map (fun out => (out.1.map FsReply.seen, out.2.contents)) =
      (raw'.play junks' events).map fun out => (out.1.map FsReply.seen, out.2.contents) := by
  induction events generalizing raw raw' fs junks junks' with
  | nil =>
    simp only [RawFs.play, Except.map, List.map_nil]
    rw [h.contents, h'.contents]
  | cons e es ih =>
    simp only [RawFs.steady, Bool.and_eq_true, Bool.not_eq_true'] at hsteady
    obtain ⟨hno, hrest⟩ := hsteady
    simp only [RawFs.play]
    rcases twin_event h h' hsound (ha e List.mem_cons_self) hno (junks 0) (junks' 0) with
      ⟨c, c', raw₁, raw₁', fs₁, hev, hev', hseen, h₁, h₁', hs₁⟩ | ⟨x, hev, hev'⟩
    · rw [hev] at hrest
      rw [hev, hev', ok_bind, ok_bind]
      have htail := ih h₁ h₁' hs₁ (fun e he => ha e (List.mem_cons_of_mem _ he)) (fun i => junks (i + 1))
        (fun i => junks' (i + 1)) hrest
      cases hp : raw₁.play (fun i => junks (i + 1)) es with
      | error x =>
        cases hp' : raw₁'.play (fun i => junks' (i + 1)) es with
        | error x' =>
          rw [hp, hp'] at htail
          cases htail
          rfl
        | ok out' =>
          rw [hp, hp'] at htail
          cases htail
      | ok out =>
        cases hp' : raw₁'.play (fun i => junks' (i + 1)) es with
        | error x' =>
          rw [hp, hp'] at htail
          cases htail
        | ok out' =>
          rw [hp, hp'] at htail
          obtain ⟨hreplies, hcontents⟩ := Prod.mk.inj (Except.ok.inj htail)
          simp only [ok_bind]
          change Except.ok (_ :: _, _) = Except.ok (_ :: _, _)
          rw [hseen, hreplies, hcontents]
    · rw [hev, hev']
      rfl

theorem contents_determined {events : List FsEvent} (ha : ∀ e ∈ events, e.Addressable)
    (junks junks' : ℕ → ℕ → UInt8) (hsteady : RawFs.new.steady junks events = true) :
    RawFs.shown junks events = RawFs.shown junks' events :=
  twin_play holds_new holds_new Fs.sound_new ha junks junks' hsteady

theorem contents_determined_cut :
    RawFs.shown (fun _ _ => 1) [.mount (ascii "f") [7, 8] true, .call (.open (ascii "f") 2), .call (.seek 3 0 2),
      .call (.write 3 [9]), .call (.truncateFd (fun _ => 0) 3 1), .call (.close 3), .unmount (ascii "f")] =
    RawFs.shown (fun _ _ => 2) [.mount (ascii "f") [7, 8] true, .call (.open (ascii "f") 2), .call (.seek 3 0 2),
      .call (.write 3 [9]), .call (.truncateFd (fun _ => 0) 3 1), .call (.close 3), .unmount (ascii "f")] := by
  apply contents_determined
  · simp [FsEvent.Addressable]
  · decide +kernel

theorem truncate_shows_junk :
    RawFs.new.play (fun _ _ => 1)
        [.mount (ascii "f") [7] true, .call (.truncateName (fun _ => 0) (ascii "f") 3), .unmount (ascii "f")] =
      .ok ([⟨0, []⟩, ⟨0, []⟩, ⟨0, [7, 1, 1]⟩], RawFs.new) ∧
    RawFs.new.play (fun _ _ => 2)
        [.mount (ascii "f") [7] true, .call (.truncateName (fun _ => 0) (ascii "f") 3), .unmount (ascii "f")] =
      .ok ([⟨0, []⟩, ⟨0, []⟩, ⟨0, [7, 2, 2]⟩], RawFs.new) := by
  decide +kernel

end Runs

end MiniBox

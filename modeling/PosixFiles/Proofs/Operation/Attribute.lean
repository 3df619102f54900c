/-
The value of an attribute, whole or not at all.

# Systems

Whether there is an attribute, and whether it is shown, is a matter of the
system; how much room there is to read it into only decides whether the value
that is there can be had (`System.ShowsAttributes`). That is what is documented
of the call, for every file system and every process. A session is such a
system, by what its world has of attributes (`Session.showsAttributes`).

# Requests

So more room never changes an answer, and less room can only make it fail for
being too small (`Files.getxattr_is_exact`). In particular nothing is ever cut
to fit, and nothing of the buffer that was not written to is given back.
-/
import PosixFiles.Proofs.Interruption.Attribute
import PosixFiles.Proofs.Operation.Session
import PosixFiles.Proofs.World.Attribute
import PosixFiles.Request

namespace PosixFiles

-- ============================================================== findings

/-- What there is to be found out about an attribute, whatever room there is
for the value. -/
inductive Finding where
  | value (value : Bytes)
  | nothing
  | failure (f : Failure)

namespace Finding

variable {p : Path} {value : Bytes} {f : Failure} {m n : Nat} {x y : Finding}

/-- What is given of a finding in the room there is. -/
def given (p : Path) (n : Nat) : Finding → Except Failure (Option Bytes)
  | .value value =>
      if n < value.length then .error (.ofErrno (.path p) .erange) else .ok (some value)
  | .nothing => .ok none
  | .failure f => .error f

theorem given_of_length_le (h : value.length ≤ n) :
    (Finding.value value).given p n = .ok (some value) :=
  if_neg (Nat.not_lt.2 h)

theorem given_of_lt_length (h : n < value.length) :
    (Finding.value value).given p n = .error (.ofErrno (.path p) .erange) :=
  if_pos h

/-- A value is too long, or it is given. -/
theorem given_value_cases (p : Path) (n : Nat) (value : Bytes) :
    (Finding.value value).given p n = .error (.ofErrno (.path p) .erange)
      ∨ value.length ≤ n ∧ (Finding.value value).given p n = .ok (some value) := by
  by_cases h : n < value.length
  · exact Or.inl (given_of_lt_length h)
  · exact Or.inr ⟨Nat.not_lt.1 h, given_of_length_le (Nat.not_lt.1 h)⟩

theorem given_eq_some_iff :
    x.given p n = .ok (some value) ↔ x = .value value ∧ value.length ≤ n := by
  constructor
  · intro h
    cases x with
    | value v =>
        rcases given_value_cases p n v with hlong | ⟨hle, hfits⟩
        · rw [hlong] at h
          cases h
        · rw [hfits] at h
          cases h
          exact ⟨rfl, hle⟩
    | nothing => cases h
    | failure f => cases h
  · rintro ⟨rfl, h⟩
    exact given_of_length_le h

theorem given_eq_none_iff : x.given p n = .ok none ↔ x = .nothing := by
  constructor
  · intro h
    cases x with
    | value v =>
        rcases given_value_cases p n v with hlong | ⟨-, hfits⟩
        · rw [hlong] at h
          cases h
        · rw [hfits] at h
          cases h
    | nothing => rfl
    | failure f => cases h
  · rintro rfl
    rfl

theorem of_given_eq_error (h : x.given p n = .error f) :
    f = .ofErrno (.path p) .erange ∨ x = .failure f := by
  cases x with
  | value v =>
      rcases given_value_cases p n v with hlong | ⟨-, hfits⟩
      · rw [hlong] at h
        cases h
        exact Or.inl rfl
      · rw [hfits] at h
        cases h
  | nothing => cases h
  | failure g =>
      cases h
      exact Or.inr rfl

/-- More room changes nothing but that there was too little. -/
theorem given_of_le (h : n ≤ m) :
    x.given p n = x.given p m ∨ x.given p n = .error (.ofErrno (.path p) .erange) := by
  cases x with
  | value v =>
      rcases given_value_cases p n v with hlong | ⟨hle, hfits⟩
      · exact Or.inr hlong
      · exact Or.inl (hfits.trans (given_of_length_le (Nat.le_trans hle h)).symm)
  | nothing => exact Or.inl rfl
  | failure f => exact Or.inl rfl

/-- What there is to be found out where this is what a system has. -/
def ofLook (p : Path) : Except Errno Bytes → Finding
  | .ok value => .value value
  | .error e => if e = .enodata then .nothing else .failure (.ofErrno (.path p) e)

theorem ofLook_error_of_ne {e : Errno} (he : e ≠ .enodata) :
    ofLook p (.error e) = .failure (.ofErrno (.path p) e) :=
  if_neg he

theorem ofLook_eq_value_iff {look : Except Errno Bytes} :
    ofLook p look = .value value ↔ look = .ok value := by
  constructor
  · intro h
    cases look with
    | ok v =>
        cases h
        rfl
    | error e =>
        by_cases he : e = .enodata
        · subst he
          cases h
        · rw [ofLook_error_of_ne he] at h
          cases h
  · rintro rfl
    rfl

theorem ofLook_eq_nothing_iff {look : Except Errno Bytes} :
    ofLook p look = .nothing ↔ look = .error .enodata := by
  constructor
  · intro h
    cases look with
    | ok v => cases h
    | error e =>
        by_cases he : e = .enodata
        · rw [he]
        · rw [ofLook_error_of_ne he] at h
          cases h
  · rintro rfl
    rfl

theorem of_ofLook_eq_failure {look : Except Errno Bytes} (h : ofLook p look = .failure f) :
    f.subject = .path p ∧ f.errno ≠ .enodata := by
  cases look with
  | ok v => cases h
  | error e =>
      by_cases he : e = .enodata
      · subst he
        cases h
      · rw [ofLook_error_of_ne he] at h
        cases h
        exact ⟨rfl, he⟩

end Finding

-- ================================================================ systems

namespace System

variable {σ : Type} {S : System σ} {look : σ → Bool → Path → Bytes → Except Errno Bytes}
variable {follow : Bool} {p : Path} {name : Bytes} {n : Nat}

/-- A system replies to those who ask for an attribute by what it has of it:
the value, or the code that says why no value is to be had. Room decides on
nothing but whether a value fits. -/
structure ShowsAttributes (S : System σ)
    (look : σ → Bool → Path → Bytes → Except Errno Bytes) : Prop where
  fits : ∀ {s follow p name room value}, look s follow p name = .ok value → 0 < room →
    value.length ≤ room → (S.call (.getxattr follow p name room) s).1 = .ok value
  tooLong : ∀ {s follow p name room value}, look s follow p name = .ok value → 0 < room →
    room < value.length → (S.call (.getxattr follow p name room) s).1 = .error .erange
  refused : ∀ {s follow p name room e}, look s follow p name = .error e → 0 < room →
    (S.call (.getxattr follow p name room) s).1 = .error e

/-- What is found is what the system has. -/
theorem ShowsAttributes.result_getxattr (hS : S.ShowsAttributes look)
    (hnul : [p, name].any Path.hasNul = false) (hn : 0 < n) (s : σ) :
    ((S.getxattr follow p name n).run s).result
      = (Finding.ofLook p (look s follow p name)).given p n := by
  rw [(run_getxattr follow hn hnul s).1]
  cases hlook : look s follow p name with
  | ok value =>
      by_cases hlong : n < value.length
      · rw [hS.tooLong hlook hn hlong]
        exact (Finding.given_of_lt_length hlong).symm
      · rw [hS.fits hlook hn (Nat.not_lt.1 hlong)]
        exact (Finding.given_of_length_le (Nat.not_lt.1 hlong)).symm
  | error e =>
      rw [hS.refused hlook hn]
      by_cases he : e = .enodata
      · subst he
        rfl
      · rw [Finding.ofLook_error_of_ne he]
        exact if_neg he

theorem result_getxattr_of_hasNul (hnul : [p, name].any Path.hasNul = true) (hn : 0 < n) (s : σ) :
    ((S.getxattr follow p name n).run s).result = .error ⟨.path p, .nulInPath⟩ := by
  have hne : n ≠ 0 := by omega
  simp only [getxattr, if_neg hne]
  rw [Op.requireNoNul_bind_of_hasNul _ hnul]
  rfl

end System

-- ============================================================== exactness

namespace Files

variable {σ : Type} {S : System σ} {s : σ} {follow : Bool} {p : Path} {name : Bytes}
variable {has : Bytes → Prop} {lacks : Prop}

/-- What a request for an attribute results in. -/
def readAttribute (F : Files) (S : System σ) (s : σ) (follow : Bool) (p : Path) (name : Bytes)
    (room : Option Nat) : Except Failure (Option Bytes) :=
  ((F.perform S (.getxattr follow p name room)).run s).result

/-- What requests for an attribute result in, with whatever room, where it may
be there with a value, and may be missing. -/
structure ReadsExactly (F : Files) (S : System σ) (s : σ) (follow : Bool) (p : Path)
    (name : Bytes) (has : Bytes → Prop) (lacks : Prop) : Prop where
  /-- A value is given if it is there and no longer than the room for it. -/
  some_iff : ∀ {n value}, 0 < n → (F.readAttribute S s follow p name (some n) = .ok (some value)
    ↔ [p, name].any Path.hasNul = false ∧ has value ∧ value.length ≤ n)
  /-- If it is longer, the failure says so. -/
  of_lt_length : ∀ {n value}, 0 < n → [p, name].any Path.hasNul = false → has value →
    n < value.length →
      F.readAttribute S s follow p name (some n) = .error (.ofErrno (.path p) .erange)
  /-- Nothing is given if the attribute is missing. -/
  none_iff : ∀ {n}, 0 < n → (F.readAttribute S s follow p name (some n) = .ok none
    ↔ [p, name].any Path.hasNul = false ∧ lacks)
  /-- Every failure is reported against the path, and none says that the
  attribute is missing. -/
  of_error : ∀ {n f}, 0 < n → F.readAttribute S s follow p name (some n) = .error f →
    f.subject = .path p ∧ f.errno ≠ .enodata
  /-- More room gives the same, unless there was too little. -/
  of_le : ∀ {n m}, 0 < n → n ≤ m →
    F.readAttribute S s follow p name (some n) = F.readAttribute S s follow p name (some m)
      ∨ F.readAttribute S s follow p name (some n) = .error (.ofErrno (.path p) .erange)
  /-- Where a request does not say how much room there is, the configuration
  does. -/
  configured : F.readAttribute S s follow p name none
    = F.readAttribute S s follow p name (some F.config.xattrBufferSize)

/-- Whoever gives what is given of one finding reads exactly. -/
theorem readsExactly_of_given {F : Files} {x : Finding}
    (hgiven : ∀ {n}, 0 < n → F.readAttribute S s follow p name (some n) = x.given p n)
    (hhas : ∀ value, x = .value value ↔ [p, name].any Path.hasNul = false ∧ has value)
    (hlacks : x = .nothing ↔ [p, name].any Path.hasNul = false ∧ lacks)
    (hfailure : ∀ f, x = .failure f → f.subject = .path p ∧ f.errno ≠ .enodata) :
    F.ReadsExactly S s follow p name has lacks where
  some_iff {n value} hn := by rw [hgiven hn, Finding.given_eq_some_iff, hhas, and_assoc]
  of_lt_length {n value} hn hnul hvalue hlong := by
    rw [hgiven hn, (hhas value).2 ⟨hnul, hvalue⟩]
    exact Finding.given_of_lt_length hlong
  none_iff {n} hn := by rw [hgiven hn, Finding.given_eq_none_iff, hlacks]
  of_error {n f} hn hf := by
    rw [hgiven hn] at hf
    rcases Finding.of_given_eq_error hf with rfl | hx
    · exact ⟨rfl, show Errno.erange ≠ .enodata by decide⟩
    · exact hfailure f hx
  of_le {n m} hn hm := by
    rw [hgiven hn, hgiven (Nat.lt_of_lt_of_le hn hm)]
    exact Finding.given_of_le hm
  configured := rfl

/-- On a system that shows attributes by what it has, reading is exact. -/
theorem readsExactly_of_showsAttributes (F : Files)
    {look : σ → Bool → Path → Bytes → Except Errno Bytes} (hS : S.ShowsAttributes look)
    (hhas : ∀ value, look s follow p name = .ok value ↔ has value)
    (hlacks : look s follow p name = .error .enodata ↔ lacks) :
    F.ReadsExactly S s follow p name has lacks := by
  cases hnul : [p, name].any Path.hasNul with
  | true =>
      refine readsExactly_of_given (x := .failure ⟨.path p, .nulInPath⟩)
        (fun hn => System.result_getxattr_of_hasNul hnul hn s) (fun value => ⟨nofun, fun h => ?_⟩)
        ⟨nofun, fun h => ?_⟩ fun f hf => ?_
      · rw [hnul] at h
        cases h.1
      · rw [hnul] at h
        cases h.1
      · cases hf
        exact ⟨rfl, show Errno.einval ≠ .enodata by decide⟩
  | false =>
      refine readsExactly_of_given (x := .ofLook p (look s follow p name))
        (fun hn => hS.result_getxattr hnul hn s) (fun value => ?_) ?_
        fun f hf => Finding.of_ofLook_eq_failure hf
      · rw [Finding.ofLook_eq_value_iff, hhas]
        exact (and_iff_right hnul).symm
      · rw [Finding.ofLook_eq_nothing_iff, hlacks]
        exact (and_iff_right hnul).symm

end Files

-- =============================================================== sessions

theorem Refusal.errno_eq_enodata_iff (r : Refusal) : r.errno = .enodata ↔ r = .noData := by
  cases r <;> decide

namespace Session

/-- What a session has of an attribute. -/
def lookAttribute (s : Session) (follow : Bool) (p : Path) (name : Bytes) :
    Except Errno Bytes :=
  reported (s.world.askAttribute follow p name)

theorem lookAttribute_eq_ok_iff {s : Session} {follow : Bool} {p : Path} {name value : Bytes} :
    s.lookAttribute follow p name = .ok value ↔ s.world.Carries follow p name value := by
  rw [← World.askAttribute_eq_ok_iff]
  refine ⟨ok_of_reported, fun h => ?_⟩
  rw [lookAttribute, h]
  rfl

theorem lookAttribute_eq_enodata_iff {s : Session} {follow : Bool} {p : Path} {name : Bytes} :
    s.lookAttribute follow p name = .error .enodata ↔ s.world.Lacks follow p name := by
  rw [← World.askAttribute_eq_noData_iff, lookAttribute]
  cases s.world.askAttribute follow p name with
  | ok value => exact ⟨nofun, nofun⟩
  | error r =>
      show Except.error r.errno = _ ↔ _
      rw [Except.error.injEq, Except.error.injEq, r.errno_eq_enodata_iff]

/-- Sessions show attributes by what their worlds have. -/
theorem showsAttributes : system.ShowsAttributes lookAttribute where
  fits {s follow p name room value} h _ hle := by
    show reported (s.world.getxattr follow p name room) = _
    rw [World.getxattr, ok_of_reported h]
    exact congrArg reported (if_neg (Nat.not_lt.2 hle))
  tooLong {s follow p name room value} h _ hlt := by
    show reported (s.world.getxattr follow p name room) = _
    rw [World.getxattr, ok_of_reported h]
    exact congrArg reported (if_pos hlt)
  refused {s follow p name room e} h _ := by
    show reported (s.world.getxattr follow p name room) = _
    rw [World.getxattr]
    rw [lookAttribute] at h
    cases hasked : s.world.askAttribute follow p name with
    | ok value =>
        rw [hasked] at h
        cases h
    | error r =>
        rw [hasked] at h
        exact h

end Session

namespace Files

/-- Reading an attribute gives its whole value, and only if it fits; nothing,
only if the attribute is missing; and every other failure, against the path.
In a session an attribute of any name is there if the file lists it and the
process may ask for it. And so it is on every system, whatever attributes it
has and shows, if room decides there on nothing but whether a value fits. -/
theorem getxattr_is_exact (F : Files) :
    (∀ (s : Session) (follow : Bool) (p : Path) (name : Bytes),
      F.ReadsExactly Session.system s follow p name (s.world.Carries follow p name)
        (s.world.Lacks follow p name))
      ∧ ∀ {σ : Type} (S : System σ) (look : σ → Bool → Path → Bytes → Except Errno Bytes),
        S.ShowsAttributes look → ∀ (s : σ) (follow : Bool) (p : Path) (name : Bytes),
          F.ReadsExactly S s follow p name (fun value => look s follow p name = .ok value)
            (look s follow p name = .error .enodata) := by
  refine ⟨fun s follow p name => ?_, fun S look hS s follow p name => ?_⟩
  · exact F.readsExactly_of_showsAttributes Session.showsAttributes
      (fun _ => Session.lookAttribute_eq_ok_iff) Session.lookAttribute_eq_enodata_iff
  · exact F.readsExactly_of_showsAttributes hS (fun _ => Iff.rfl) Iff.rfl

/-- A file that nobody may read has two attributes that are shown to
everybody. There is room for all of the value, which ends with a NUL, and for
all but its last byte; and there is no access list. -/
theorem getxattr_is_exact_at_length :
    let name := Bytes.ofString "security.capability"
    let value : Bytes := [0x76, 0]
    let node : Node := ⟨.regular [], 0, true, [(name, value)], {}, {}, {}⟩
    let top : Node := ⟨.directory { parent := 0, entries := [([0x66], 1)] }, 0o755, true, [],
      {}, {}, {}⟩
    let s : Session := { world := { nodes := #[top, node], cwd := 0, mask := 0o022, now := {} } }
    let list := Bytes.ofString "system.posix_acl_access"
    let read := readAttribute {} Session.system s true [0x66]
    s.world.Carries true [0x66] name value ∧ s.world.Lacks true [0x66] list
      ∧ read name (some 2) = .ok (some value)
      ∧ read name (some 1) = .error (.ofErrno (.path [0x66]) .erange)
      ∧ read list (some 1) = .ok none
      ∧ Session.system.ShowsAttributes Session.lookAttribute
      ∧ (read name (some 1) = read name (some 2)
        ∨ read name (some 1) = .error (.ofErrno (.path [0x66]) .erange)) := by
  intro name value node top s list read
  have hfile : s.world.file true [0x66] = .ok 1 := by
    simp only [s, top, node, name, value]
    rfl
  have hcarries : s.world.Carries true [0x66] name value :=
    ⟨by decide, by decide, 1, hfile, rfl, rfl⟩
  have hlacks : s.world.Lacks true [0x66] list :=
    .unset (by decide) (by decide) hfile rfl rfl rfl
  have hname := (getxattr_is_exact {}).1 s true [0x66] name
  have hlist := (getxattr_is_exact {}).1 s true [0x66] list
  have hshows :=
    (getxattr_is_exact {}).2 Session.system _ Session.showsAttributes s true [0x66] name
  have hclean : [[0x66], name].any Path.hasNul = false := by decide +kernel
  exact ⟨hcarries, hlacks, (hname.some_iff (by decide)).2 ⟨hclean, hcarries, Nat.le_refl _⟩,
    hname.of_lt_length (by decide) hclean hcarries (by decide),
    (hlist.none_iff (by decide)).2 ⟨by decide +kernel, hlacks⟩, Session.showsAttributes,
    hshows.of_le (by decide) (by decide)⟩

/-- An empty value is a value. -/
example :
    let name : Bytes := [0x75, 0x73, 0x65, 0x72, 0x2e, 0x6b]
    let top : Node := ⟨.directory { parent := 0 }, 0o755, true, [(name, [])], {}, {}, {}⟩
    let s : Session := { world := { nodes := #[top], cwd := 0, mask := 0o022, now := {} } }
    readAttribute {} Session.system s true [0x2f] name (some 1) = .ok (some []) := by
  rfl

end Files
end PosixFiles

/-
The types of what entries lead to, as a listing gives them.

A listing that follows links should show of each entry what `stat` shows of
it from within the directory. There are two ways to a type: a hint that
settles the matter, and a look, for links and for want of a hint. `stat`
walks from the working directory, a look from the directory that is being
listed; the two walks are the same once that is the working directory
(`statusFrom_within`). A true hint at a file that is no link is the type
that a look shows as well (`followedType_eq`), so the two ways agree, entry
by entry, however hints are filled in.

Of an entry with a false hint only this is known, that it does not appear
as a link: no entry of such a listing does, on any system.
-/
import PosixFiles.Proofs.Listing.Indifference
import PosixFiles.Proofs.Listing.Typing

namespace PosixFiles

namespace EntryType

/-- The type that a reply to `stat` shows: that of a file or a directory,
and unknown for everything else, failures included. -/
def ofReply : Except Errno Status → EntryType
  | .ok st => if st.isFile then .regular else if st.isDirectory then .directory else .unknown
  | .error _ => .unknown

theorem eq_symlink_of_ofFileType {type : FileType} (h : ofFileType type = .symlink) :
    type = .symlink := by
  cases type <;> first | rfl | cases h

end EntryType

namespace World

variable {w : World}

-- ============================================ looking from a directory

/-- The world as it is for a process with another working directory. -/
def within (w : World) (dir : Ino) : World :=
  { w with cwd := dir }

theorem advance_within (c : Ino) {follow slash : Bool}
    {onLink : Ino → LinkTarget → List Name → Except Refusal Spot} (names : List Name) :
    ∀ dir, (w.within c).advance follow slash onLink dir names
      = w.advance follow slash onLink dir names := by
  induction names with
  | nil => exact fun _ => rfl
  | cons n names ih =>
      intro dir
      simp only [advance, ih]
      rfl

/-- Where a walk leads does not depend on the working directory. -/
theorem walk_within (c : Ino) (follow : Bool → Bool) (links : Nat) :
    ∀ slash dir names, (w.within c).walk follow links slash dir names
      = w.walk follow links slash dir names := by
  induction links with
  | zero => exact fun _ dir names => advance_within c names dir
  | succ links ih =>
      intro slash dir names
      simp only [walk, ih]
      exact advance_within c names dir

theorem statusFrom_within (c dir : Ino) (follow : Bool) (p : Path) :
    Session.statusFrom dir follow p (w.within c) = Session.statusFrom dir follow p w := by
  have hspot : (w.within c).spotFrom dir (follow || ·) p = w.spotFrom dir (follow || ·) p := by
    unfold spotFrom
    rw [walk_within]
  have hfile : (w.within c).fileFrom dir follow p = w.fileFrom dir follow p := by
    unfold fileFrom
    rw [hspot]
    rfl
  unfold Session.statusFrom
  rw [hfile]
  rfl

/-- A look shows what a process in the directory gets from `stat`. -/
theorem shownType_eq_ofReply (s : Session) (i : Ino) (n : Name) :
    s.world.shownType i true n = .ofReply
      (Session.system.call (.stat true n) { s with world := s.world.within i }).1 := by
  show _ = EntryType.ofReply (Session.reported (Session.statusFrom i true n (s.world.within i)))
  rw [statusFrom_within, shownType]
  cases Session.statusFrom i true n s.world <;> rfl

-- ============================================================= two ways

/-- The type of an entry where links are followed: by its hint if that is
neither missing nor that of a link, and otherwise by a look. -/
def followedType (w : World) (i : Ino) (x : StreamEntry) : EntryType :=
  if x.hint = Hint.regular then .regular
  else if x.hint = Hint.directory then .directory
  else if x.hint = Hint.symlink ∨ x.hint = Hint.unknown then w.shownType i true x.name
  else .unknown

/-- A hint that is true or missing leads to the type that a look shows. -/
theorem followedType_eq {i : Ino} {d : Directory} (hdir : w.Lists i d) {e : Name × Ino}
    (he : e ∈ d.entries) {hint : UInt8} (hhint : hint = w.hintOf e.2 ∨ hint = Hint.unknown) :
    w.followedType i ⟨e.1, hint⟩ = w.shownType i true e.1 := by
  rcases hhint with rfl | rfl
  · obtain ⟨node, hnode, -⟩ := hdir.exists_file e he
    have hbody : w.body? e.2 = some node.body := by
      rw [body?, hnode]
    have hshown := hdir.shownType_entry he hnode
    -- a file that is no link is shown as what it is, links followed or not
    have hfollow : node.body.fileType ≠ .symlink →
        w.shownType i true e.1 = .ofFileType node.body.fileType := fun htype =>
      (hdir.shownType_of_not_symlink he (fun hlink =>
        htype (EntryType.eq_symlink_of_ofFileType (hshown.symm.trans hlink))) true).trans hshown
    unfold followedType hintOf
    rw [hbody]
    cases hb : node.body with
    | symlink target => rfl
    | _ =>
        rw [hb] at hfollow
        exact (hfollow (FileType.noConfusion ·)).symm
  · rfl

end World

namespace Trial

variable {t : Trial} {w : World} {i : Ino} {h : Handle}

/-- The type that a listing finds which follows links. -/
theorem typedEntry_follows (hlook : ∀ e, ⟨.fstatat, some e⟩ ∉ t.script) (x : StreamEntry)
    {later : List StreamEntry} {q : Recorded (Scripted Session)} (H : t.Holding w h i later q) :
    ∃ events q', (t.system.typedEntry h .ofTarget x).run q
        = ⟨.ok ⟨x.name, some (w.followedType i x)⟩, events, q'⟩
      ∧ t.Holding w h i later q' := by
  suffices htype : ∃ events q', (t.system.typeOfEntry h x true).run q
      = ⟨.ok (w.followedType i x), events, q'⟩ ∧ t.Holding w h i later q' by
    obtain ⟨events, q', hrun, H'⟩ := htype
    exact ⟨_, q', Op.run_bind_ok hrun, H'⟩
  unfold System.typeOfEntry World.followedType
  split
  · exact ⟨[], q, rfl, H⟩
  split
  · exact ⟨[], q, rfl, H⟩
  rw [if_neg (by simp)]
  split
  · exact H.typeByStatus hlook x.name
  · exact ⟨[], q, rfl, H⟩

/-- A listing that follows links never shows one. Where no look at an entry
fails it gives each entry at which a hint is true or missing the type that
`stat` shows of it from within the directory, whatever the hints at other
entries. -/
theorem readDir_follows_links (F : Files) (p : Path) (s : Session) (script : List Fault)
    (disguise : Disguise) :
    let t : Trial := { request := .readDir p .ofTarget, script, disguise }
    (∀ ys, (t.report F s).result = .ok ys → ∀ y ∈ ys, y.type ≠ some .symlink)
      ∧ ∀ i d, p.hasNul = false → s.world.file true p = .ok i → s.world.Lists i d →
        (∀ e, ⟨.fstatat, some e⟩ ∉ script) →
        (∃ primitive e, (primitive = .opendir ∨ primitive = .readdir ∨ primitive = .closedir)
            ∧ e ≠ .eintr ∧ ⟨primitive, some e⟩ ∈ script
            ∧ (t.report F s).result = .error (.ofErrno (.path p) e))
          ∨ ∃ type : Name × Ino → EntryType,
            (t.report F s).result = .ok (d.entries.map fun e => ⟨e.1, some (type e)⟩)
              ∧ ∀ e ∈ d.entries, disguise.hintFor s.world e = s.world.hintOf e.2
                  ∨ disguise.hintFor s.world e = Hint.unknown →
                type e = .ofReply (Session.system.call (.stat true e.1)
                  { s with world := s.world.within i }).1 := by
  intro t
  refine ⟨fun ys hys y hy => ?_, fun i d hnul hfile hdir hlook => ?_⟩
  · obtain ⟨-, htypes⟩ := System.amountsTo_readDir hys
    exact (htypes y hy).ne_symlink rfl
  show (∃ primitive e, _ ∧ _ ∧ _ ∧ ((t.system.readDir p .ofTarget).run _).result = _)
    ∨ ∃ type, ((t.system.readDir p .ofTarget).run _).result = _ ∧ _
  obtain ⟨r, ⟨e, hne, hmem, hopened⟩ | ⟨hopened, H⟩⟩ := opendir_cases t hfile hdir
  · refine Or.inl ⟨.opendir, e, Or.inl rfl, hne, hmem, ?_⟩
    rw [System.run_readDir_of_error t.system hnul hopened]
  rw [(System.run_readDir_of_ok t.system hnul .ofTarget hopened).1]
  rcases entriesOf_of_typed p .ofTarget (fun x => some (s.world.followedType i x)) hdir
      (fun e he later q Hq => typedEntry_follows hlook _ Hq) H with
    ⟨primitive, e, hprimitive, hrest⟩ | hresult
  · exact Or.inl ⟨primitive, e, Or.inr hprimitive, hrest⟩
  · refine Or.inr ⟨_, hresult, fun e he hhint => ?_⟩
    rw [World.followedType_eq hdir he hhint, World.shownType_eq_ofReply]

/-- A directory with a file, links to the file, to nothing, and to itself,
and a fifo. There is no hint at the file, and a false one at the fifo, which
is the only entry of which the listing does not show what `stat` does. -/
theorem readDir_follows_links_of_all_kinds :
    let link (target : Path) (h : target ≠ [] ∧ target.length < pathMax) : Node :=
      ⟨.symlink ⟨target, h.1, h.2⟩, 0o777, true, [], {}, {}, {}⟩
    let d : Directory :=
      { parent := 0
        entries := [([0x66], 1), ([0x6c], 2), ([0x6e], 3), ([0x6f], 4), ([0x70], 5)] }
    let s : Session :=
      { world :=
          { nodes := #[⟨.directory d, 0o755, true, [], {}, {}, {}⟩,
              ⟨.regular [0x78], 0o644, true, [], {}, {}, {}⟩,
              link [0x66] (by decide), link [0x7a] (by decide), link [0x6f] (by decide),
              ⟨.fifo, 0o644, true, [], {}, {}, {}⟩]
            cwd := 0, mask := 0o022, now := {} } }
    let script : List Fault := [⟨.fstatat, none⟩, ⟨.readdir, some .eio⟩]
    let disguise : Disguise := { hints := [([0x66], Hint.unknown), ([0x70], Hint.regular)] }
    let t : Trial := { request := .readDir [0x2e] .ofTarget, script, disguise }
    Path.hasNul [0x2e] = false ∧ s.world.file true [0x2e] = .ok 0 ∧ s.world.Lists 0 d
      ∧ (∀ e, ⟨.fstatat, some e⟩ ∉ script)
      ∧ (t.report {} s).result.toOption
        = some [⟨[0x66], some .regular⟩, ⟨[0x6c], some .regular⟩, ⟨[0x6e], some .unknown⟩,
            ⟨[0x6f], some .unknown⟩, ⟨[0x70], some .regular⟩]
      ∧ (∀ ys, (t.report {} s).result = .ok ys → ∀ y ∈ ys, y.type ≠ some .symlink)
      ∧ ((∃ primitive e, (primitive = .opendir ∨ primitive = .readdir ∨ primitive = .closedir)
            ∧ e ≠ .eintr ∧ ⟨primitive, some e⟩ ∈ script
            ∧ (t.report {} s).result = .error (.ofErrno (.path [0x2e]) e))
          ∨ ∃ type : Name × Ino → EntryType,
            (t.report {} s).result = .ok (d.entries.map fun e => ⟨e.1, some (type e)⟩)
              ∧ ∀ e ∈ d.entries, disguise.hintFor s.world e = s.world.hintOf e.2
                  ∨ disguise.hintFor s.world e = Hint.unknown →
                type e = .ofReply (Session.system.call (.stat true e.1)
                  { s with world := s.world.within 0 }).1) :=
  ⟨by decide, rfl, by decide, by simp, by decide +kernel,
    (readDir_follows_links {} [0x2e] _ _ _).1,
    (readDir_follows_links {} [0x2e] _ _ _).2 0 _ (by decide) rfl (by decide) (by simp)⟩

end Trial
end PosixFiles

/-
The order of the keys of a document.

# Lines

A line concerns one key of the outermost table at most, the first on its
way (`Line.outermost?`). The key comes behind all others if it is new, and
stays where it is otherwise. One kind of line does more: a header that is
the key alone is where its table is to be found, and moves it behind all
others if headers only passed through it before (`Line.arrange`). Where that
does not happen the keys stand in the order in which they first appear
(`arranged_of_unmoved`).

# Documents

How what stands at a key changes has no part in this, nor has anything
deeper. So the keys of a document can be read off its lines, one after the
other (`Document.keys_eq`), and no key is there twice.
-/
import PosixFiles.Toml.Document

namespace PosixFiles.Toml

-- ================================================================== keys

/-- Keys after one of them was mentioned: a new one comes last. -/
def mentioned (keys : List String) (key : String) : List String :=
  if key ∈ keys then keys else keys ++ [key]

/-- Keys after one of them got its own header: it comes last. -/
def announced (keys : List String) (key : String) : List String :=
  keys.filter (· ≠ key) ++ [key]

theorem nodup_append_key {keys : List String} (h : keys.Nodup) {key : String}
    (hkey : key ∉ keys) : (keys ++ [key]).Nodup := by
  refine List.nodup_append.2 ⟨h, List.pairwise_singleton _ key, fun a ha b hb => ?_⟩
  rw [List.mem_singleton.1 hb]
  exact ne_of_mem_of_not_mem ha hkey

theorem nodup_mentioned {key : String} {keys : List String} (h : keys.Nodup) :
    (mentioned keys key).Nodup := by
  unfold mentioned
  split
  next => exact h
  next hkey => exact nodup_append_key h hkey

theorem nodup_announced {key : String} {keys : List String} (h : keys.Nodup) :
    (announced keys key).Nodup :=
  nodup_append_key (h.filter _) (by simp)

/-- The keys of a table, in order. -/
def keysOf {α : Type} (entries : List (String × α)) : List String :=
  entries.map Prod.fst

/-- Whatever becomes of what a key leads to, the key is mentioned. -/
theorem keysOf_place {key : String} {become : Option Node → Option Node}
    {entries entries' : Entries} (h : place key become entries = some entries') :
    keysOf entries' = mentioned (keysOf entries) key := by
  induction entries generalizing entries' with
  | nil =>
      obtain ⟨node, -, rfl⟩ := Option.map_eq_some_iff.1 h
      rfl
  | cons e entries ih =>
      obtain ⟨k, node⟩ := e
      rw [place] at h
      by_cases hk : k = key
      · rw [if_pos hk] at h
        obtain ⟨node', -, rfl⟩ := Option.map_eq_some_iff.1 h
        simp [keysOf, mentioned, hk]
      · rw [if_neg hk] at h
        obtain ⟨rest, hrest, rfl⟩ := Option.map_eq_some_iff.1 h
        have htail : keysOf ((k, node) :: rest) = k :: mentioned (keysOf entries) key :=
          congrArg (k :: ·) (ih hrest)
        rw [htail]
        by_cases hmem : key ∈ keysOf entries
        · simp_all [keysOf, mentioned]
        · simp_all [keysOf, mentioned, Ne.symm hk]

/-- A key that gets its own header comes last, whether headers passed through
it before or not. -/
theorem keysOf_announce {key : String} {entries entries' : Entries}
    (h : announce key entries = some entries') :
    keysOf entries' = announced (keysOf entries) key := by
  unfold announce at h
  split at h
  next hnone =>
    have hnew : (keysOf entries).filter (· ≠ key) = keysOf entries := by
      refine List.filter_eq_self.2 fun k hk => ?_
      obtain ⟨e, he, rfl⟩ := List.mem_map.1 hk
      have hne := List.lookup_eq_none_iff.1 hnone e he
      exact decide_eq_true (Ne.symm (bne_iff_ne.1 hne))
    rw [← Option.some.inj h, announced, hnew]
    exact List.map_append
  next inner hsome =>
    rw [← Option.some.inj h, announced, keysOf, keysOf, List.map_append, List.filter_map]
    rfl
  next => cases h

/-- A way that leads on mentions its first key. -/
theorem keysOf_within {change : Entries → Option Entries} {key : String} {way : List String}
    {entries entries' : Entries} (h : within change (key :: way) entries = some entries') :
    keysOf entries' = mentioned (keysOf entries) key := by
  rw [within] at h
  exact keysOf_place h

theorem keysOf_put {v : Value} {key : String} {more : List String} {entries entries' : Entries}
    (h : put v (key :: more) entries = some entries') :
    keysOf entries' = mentioned (keysOf entries) key := by
  cases more with
  | nil =>
      rw [put] at h
      exact keysOf_place h
  | cons next more =>
      rw [put] at h
      exact keysOf_place h

-- ================================================================= lines

namespace Line

/-- The key of the outermost table that a line concerns. The keys of an
assignment start from the table to which the latest header leads. -/
def outermost? (way : List String) : Line → Option String
  | .blank => none
  | .assignment key _ => (way ++ key).head?
  | .table key => key.head?
  | .element key => key.head?

/-- The keys of the outermost table after one more line. -/
def arrange (way : List String) (keys : List String) : Line → List String
  | .table [key] => announced keys key
  | line =>
      match line.outermost? way with
      | none => keys
      | some key => mentioned keys key

/-- The way to the table to which the latest header leads. -/
def way (before : List String) : Line → List String
  | .table key => key
  | .element key => key
  | _ => before

theorem nodup_arrange {way keys : List String} (h : keys.Nodup) (line : Line) :
    (line.arrange way keys).Nodup := by
  unfold arrange
  split
  · exact nodup_announced h
  · split
    · exact h
    · exact nodup_mentioned h

end Line

/-- The keys of the outermost table after some more lines. -/
def arranged (way keys : List String) : List Line → List String
  | [] => keys
  | line :: lines => arranged (line.way way) (line.arrange way keys) lines

theorem nodup_arranged {lines : List Line} :
    ∀ {way keys : List String}, keys.Nodup → (arranged way keys lines).Nodup := by
  induction lines with
  | nil => exact fun h => h
  | cons line lines ih => exact fun h => ih (line.nodup_arrange h)

/-- The keys of the outermost table that lines concern, one after the
other. -/
def mentions (way : List String) : List Line → List String
  | [] => []
  | line :: lines => (line.outermost? way).toList ++ mentions (line.way way) lines

/-- No table gets its own header after a line that concerned it. -/
def Unmoved (lines : List Line) : Prop :=
  ∀ before key after, lines = before ++ .table [key] :: after → key ∉ mentions [] before

/-- A line whose header is of no key before it only mentions its key. -/
theorem Line.arrange_eq_foldl {way keys : List String} {line : Line}
    (h : ∀ key, line = .table [key] → key ∉ keys) :
    line.arrange way keys
      = (line.outermost? way).toList.foldl mentioned keys := by
  unfold arrange
  split
  next key =>
    have hkey := h key rfl
    have hall : keys.filter (· ≠ key) = keys :=
      List.filter_eq_self.2 fun k hk => decide_eq_true (ne_of_mem_of_not_mem hk hkey)
    rw [announced, hall]
    exact (if_neg hkey).symm
  next =>
    cases line.outermost? way <;> rfl

theorem mem_foldl_mentioned {keys ms : List String} {k : String}
    (h : k ∈ ms.foldl mentioned keys) : k ∈ keys ++ ms := by
  induction ms generalizing keys with
  | nil => simpa using h
  | cons m ms ih =>
      have hmem : k ∈ mentioned keys m ++ ms := ih h
      unfold mentioned at hmem
      split at hmem
      · exact List.mem_append.2 ((List.mem_append.1 hmem).imp_right (List.mem_cons_of_mem m))
      · simpa using hmem

theorem arranged_eq_foldl {lines : List Line} :
    ∀ {way keys : List String},
      (∀ before key after, lines = before ++ .table [key] :: after →
        key ∉ keys ++ mentions way before) →
      arranged way keys lines
        = (mentions way lines).foldl mentioned keys := by
  induction lines with
  | nil => exact fun _ => rfl
  | cons line lines ih =>
      intro way keys h
      have hline : ∀ key, line = .table [key] → key ∉ keys := by
        rintro key rfl
        simpa [mentions] using h [] key lines rfl
      rw [arranged, mentions, List.foldl_append, ← Line.arrange_eq_foldl hline]
      refine ih fun before key after heq hmem => h (line :: before) key after (by rw [heq]; rfl) ?_
      rw [mentions, ← List.append_assoc]
      rcases List.mem_append.1 hmem with hmem | hmem
      · rw [Line.arrange_eq_foldl hline] at hmem
        exact List.mem_append_left _ (mem_foldl_mentioned hmem)
      · exact List.mem_append_right _ hmem

theorem foldl_mentioned_eq {ms : List String} :
    ∀ keys : List String, ms.foldl mentioned keys
      = keys ++ (ms.filter fun m => m ∉ keys).eraseDups := by
  induction ms with
  | nil => exact fun keys => (List.append_nil keys).symm
  | cons m ms ih =>
      intro keys
      rw [List.foldl_cons, ih]
      unfold mentioned
      split
      next hm => rw [List.filter_cons_of_neg (by simpa using hm)]
      next hm =>
        have hfilter : (ms.filter fun a => a ∉ keys ++ [m])
            = (ms.filter fun a => a ∉ keys).filter fun a => !a == m := by
          rw [List.filter_filter]
          exact List.filter_congr fun a _ => by
            rw [Bool.eq_iff_iff]
            simp [and_comm]
        rw [List.filter_cons_of_pos (by simpa using hm), List.eraseDups_cons, hfilter,
          List.append_assoc]
        rfl

/-- Where no table is moved, the keys stand in the order in which they first
appear. -/
theorem arranged_of_unmoved {lines : List Line} (h : Unmoved lines) :
    arranged [] [] lines = (mentions [] lines).eraseDups := by
  rw [arranged_eq_foldl (by simpa [Unmoved] using h), foldl_mentioned_eq,
    List.nil_append, List.filter_eq_self.2 fun _ _ => decide_eq_true List.not_mem_nil]

/-- A line that is added arranges the keys, and leads where it leads. -/
theorem keysOf_add {d d' : Draft} {line : Line} (h : d.add line = some d') :
    keysOf d'.entries = line.arrange d.current (keysOf d.entries)
      ∧ d'.current = line.way d.current := by
  cases line with
  | blank =>
      rw [← Option.some.inj h]
      exact ⟨rfl, rfl⟩
  | assignment key v =>
      obtain ⟨entries, hentries, rfl⟩ := Option.map_eq_some_iff.1 h
      refine ⟨?_, rfl⟩
      obtain ⟨before, current⟩ := d
      cases current with
      | cons first way => exact keysOf_within hentries
      | nil =>
          rw [within] at hentries
          cases key with
          | nil => cases hentries
          | cons first more => exact keysOf_put hentries
  | table key =>
      obtain ⟨entries, hentries, rfl⟩ := Option.map_eq_some_iff.1 h
      refine ⟨?_, rfl⟩
      unfold openTable at hentries
      cases key with
      | nil => cases hentries
      | cons first more =>
          cases more with
          | nil => exact keysOf_announce hentries
          | cons next more => exact keysOf_within hentries
  | element key =>
      obtain ⟨entries, hentries, rfl⟩ := Option.map_eq_some_iff.1 h
      refine ⟨?_, rfl⟩
      unfold openElement at hentries
      cases key with
      | nil => cases hentries
      | cons first more =>
          cases more with
          | nil => exact keysOf_place hentries
          | cons next more => exact keysOf_within hentries

theorem keysOf_foldlM_add {lines : List Line} :
    ∀ {d d' : Draft}, lines.foldlM Draft.add d = some d' →
      keysOf d'.entries = arranged d.current (keysOf d.entries) lines := by
  induction lines with
  | nil =>
      intro d d' h
      rw [← Option.some.inj h]
      rfl
  | cons line lines ih =>
      intro d d' h
      rw [List.foldlM_cons, Option.bind_eq_bind] at h
      obtain ⟨next, hnext, hrest⟩ := Option.bind_eq_some_iff.1 h
      obtain ⟨hkeys, hway⟩ := keysOf_add hnext
      rw [ih hrest, hkeys, hway]
      rfl

-- ============================================================= documents

theorem keysOf_finishedEntries (entries : Entries) :
    keysOf (finishedEntries entries) = keysOf entries := by
  induction entries with
  | nil => rfl
  | cons e entries ih =>
      obtain ⟨key, node⟩ := e
      rw [finishedEntries]
      exact congrArg (key :: ·) ih

/-- The keys of a document are all different, and its lines arrange them. If
no table is moved they stand in the order in which they first appear. -/
theorem Document.keys_eq {text : String} {d : Document} (h : Document.ofText? text = some d) :
    (keysOf d.entries).Nodup ∧ ∃ lines, lines? (withoutMark text.toList) = some lines
      ∧ keysOf d.entries = arranged [] [] lines
      ∧ (Unmoved lines → keysOf d.entries = (mentions [] lines).eraseDups) := by
  unfold Document.ofText? at h
  simp only [Option.bind_eq_bind] at h
  obtain ⟨lines, hlines, h⟩ := Option.bind_eq_some_iff.1 h
  obtain ⟨draft, hdraft, h⟩ := Option.bind_eq_some_iff.1 h
  have hkeys : keysOf d.entries = arranged [] [] lines := by
    rw [← Option.some.inj h]
    exact (keysOf_finishedEntries _).trans (keysOf_foldlM_add hdraft)
  rw [hkeys]
  exact ⟨nodup_arranged List.nodup_nil, lines, hlines, rfl, arranged_of_unmoved⟩

/-- A table has its place where its own header is, and not where a header
first passed through it. -/
example : (lines? "[z.b]\n[y]\nx = 1\n[z]\n[y.c]".toList).map (arranged [] [])
    = some ["y", "z"] := by decide +kernel

end PosixFiles.Toml

/-
Documents that give numbers to keys, one on each line.

# A line

A key without marks is read up to the blank behind it, the number up to
the end of the line, and what follows the line is left for the lines after
it (`line?_append`). So lines put together are read as those lines
(`lines?_flatten`).

# A document

Under keys that are all different each line adds an entry behind those
before it. `Document.ofText?_assignments` is the document of such lines:
its entries are the keys with their numbers, in order.
-/
import PosixFiles.Proofs.Toml.Numeral

namespace PosixFiles.Toml

-- ================================================================= lines

/-- Whether a key may stand without marks around it. -/
def isBareKey (key : String) : Bool :=
  !key.isEmpty && key.toList.all isBareKeyChar

/-- A line that gives a number to a key. -/
def assignmentLine (a : String × Nat) : List Char :=
  a.1.toList ++ ' ' :: '=' :: ' ' :: (Nat.toDigits 10 a.2 ++ ['\n'])

/-- What the line adds to a document. -/
def assigned (a : String × Nat) : String × Value := (a.1, .integer a.2)

/-- Characters of keys without marks begin nothing else. -/
theorem ne_of_isBareKeyChar {c d : Char} (hc : isBareKeyChar c = true)
    (hd : isBareKeyChar d = false) : c ≠ d := by
  rintro rfl
  rw [hc] at hd
  cases hd

theorem isSpace_of_isBareKeyChar {c : Char} (hc : isBareKeyChar c = true) : isSpace c = false := by
  simp [isSpace, ne_of_isBareKeyChar hc (d := ' ') (by decide),
    ne_of_isBareKeyChar hc (d := '\t') (by decide)]

/-- The characters of a key without marks. -/
theorem exists_cons_of_isBareKey {key : String} (h : isBareKey key = true) :
    ∃ c cs, key.toList = c :: cs ∧ ∀ d ∈ c :: cs, isBareKeyChar d = true := by
  unfold isBareKey at h
  rw [Bool.and_eq_true, List.all_eq_true] at h
  obtain ⟨hne, hall⟩ := h
  cases hkey : key.toList with
  | nil =>
      have hempty : key = "" := String.toList_inj.1 hkey
      rw [hempty] at hne
      cases hne
  | cons c cs =>
      rw [hkey] at hall
      exact ⟨c, cs, rfl, hall⟩

theorem skipSpace_cons {c : Char} (hc : isSpace c = false) (cs : List Char) :
    skipSpace (c :: cs) = c :: cs :=
  List.dropWhile_cons_of_neg (by simp [hc])

/-- A key without marks is read up to the equals sign behind it. -/
theorem key?_append {key : String} (h : isBareKey key = true) (rest : List Char) :
    key? (key.toList ++ ' ' :: '=' :: rest) = some ([key], '=' :: rest) := by
  obtain ⟨c, cs, hkey, hall⟩ := exists_cons_of_isBareKey h
  have hc := hall c (List.mem_cons_self ..)
  have hshort : shortString? (c :: (cs ++ ' ' :: '=' :: rest)) = none := by
    unfold shortString?
    split
    next heq => exact absurd (List.cons.inj heq).1 (ne_of_isBareKeyChar hc (by decide))
    next heq => exact absurd (List.cons.inj heq).1 (ne_of_isBareKeyChar hc (by decide))
    next => rfl
  have hsimple : simpleKey? (key.toList ++ ' ' :: '=' :: rest)
      = some (key, ' ' :: '=' :: rest) := by
    unfold simpleKey?
    rw [span_append_cons (by rw [hkey]; exact hall) (by decide), hkey, List.cons_append, hshort]
    dsimp only
    rw [if_neg (List.cons_ne_nil c cs), ← hkey, String.ofList_toList]
  have hskip : skipSpace (key.toList ++ ' ' :: '=' :: rest) = key.toList ++ ' ' :: '=' :: rest := by
    rw [hkey]
    exact skipSpace_cons (isSpace_of_isBareKeyChar hc) _
  have hparts : keyParts? (key.toList ++ ' ' :: '=' :: rest) = some ([key], '=' :: rest) := by
    rw [keyParts?, hskip, hsimple]
    rfl
  rw [key?, hparts]
  rfl

/-- A number that fits is read where a value is. -/
theorem value?_toDigits {n : Nat} (hword : isWord n = true) (depth : Nat) (rest : List Char) :
    value? depth (Nat.toDigits 10 n ++ '\n' :: rest) = some (.integer n, '\n' :: rest) := by
  have h := isNumeral_toDigits n
  obtain ⟨d, ds, hds⟩ := List.exists_cons_of_ne_nil h.ne_nil
  have hd : ∀ {c : Char}, c.isDigit = false → d ≠ c := by
    rintro c hc rfl
    exact h.not_mem hc (by rw [hds]; exact List.mem_cons_self ..)
  have hscalar := scalar?_toDigits hword rest
  rw [hds, List.cons_append] at hscalar ⊢
  rw [value?.eq_def]
  split
  next heq => exact absurd (List.cons.inj heq).1 (hd rfl)
  next heq => exact absurd (List.cons.inj heq).1 (hd rfl)
  next heq => exact absurd (List.cons.inj heq).1 (hd rfl)
  next heq => exact absurd (List.cons.inj heq).1 (hd rfl)
  next => exact hscalar

theorem skipSpace_toDigits (n : Nat) (rest : List Char) :
    skipSpace (' ' :: (Nat.toDigits 10 n ++ rest)) = Nat.toDigits 10 n ++ rest := by
  have h := isNumeral_toDigits n
  obtain ⟨d, ds, hds⟩ := List.exists_cons_of_ne_nil h.ne_nil
  have hd : isSpace d = false := by
    refine isSpace_of_isBareKeyChar ?_
    simp [isBareKeyChar, Char.isAlphanum, h.isDigit d (by rw [hds]; exact List.mem_cons_self ..)]
  rw [hds]
  exact skipSpace_cons hd _

theorem assignmentLine_append (a : String × Nat) (rest : List Char) :
    assignmentLine a ++ rest
      = a.1.toList ++ ' ' :: '=' :: ' ' :: (Nat.toDigits 10 a.2 ++ '\n' :: rest) := by
  simp [assignmentLine, List.append_assoc]

theorem assignment?_append {a : String × Nat} (hkey : isBareKey a.1 = true)
    (hword : isWord a.2 = true) (depth : Nat) (rest : List Char) :
    assignment? (value? depth) (assignmentLine a ++ rest)
      = some (([a.1], .integer a.2), '\n' :: rest) := by
  rw [assignmentLine_append, assignment?, key?_append hkey]
  show (value? depth (skipSpace (' ' :: (Nat.toDigits 10 a.2 ++ '\n' :: rest)))).map _ = _
  rw [skipSpace_toDigits, value?_toDigits hword]
  rfl

/-- A line that gives a number to a key is read as that, and what follows
it is left. -/
theorem line?_append {a : String × Nat} (hkey : isBareKey a.1 = true) (hword : isWord a.2 = true)
    (rest : List Char) :
    line? (assignmentLine a ++ rest) = some (.assignment [a.1] (.integer a.2), rest) := by
  obtain ⟨c, cs, hcs, hall⟩ := exists_cons_of_isBareKey hkey
  have hc := hall c (List.mem_cons_self ..)
  have hassignment := assignment?_append hkey hword (depthLimit - 1) rest
  have hcons : assignmentLine a ++ rest = c :: (assignmentLine a ++ rest).tail := by
    rw [assignmentLine, hcs]
    rfl
  rw [hcons] at hassignment ⊢
  have hbody : lineBody? (c :: (assignmentLine a ++ rest).tail)
      = some (.assignment [a.1] (.integer a.2), '\n' :: rest) := by
    -- the first character begins neither a comment nor a header nor the end of the line
    have hne : ∀ {d : Char} {t t' : List Char}, isBareKeyChar d = false → c :: t ≠ d :: t' :=
      fun hd heq => ne_of_isBareKeyChar hc hd (List.cons.inj heq).1
    unfold lineBody?
    split
    next heq => cases heq
    next heq => exact absurd heq (hne rfl)
    next heq => exact absurd heq (hne rfl)
    next heq => exact absurd heq (hne rfl)
    next heq => exact absurd heq (hne rfl)
    next heq => exact absurd heq (hne rfl)
    next =>
      rw [hassignment]
      rfl
  rw [line?, skipSpace_cons (isSpace_of_isBareKeyChar hc), hbody]
  rfl

/-- Lines that give numbers to keys are read one after the other. -/
theorem lines?_flatten {as : List (String × Nat)} (hkeys : ∀ a ∈ as, isBareKey a.1 = true)
    (hwords : ∀ a ∈ as, isWord a.2 = true) :
    lines? (as.map assignmentLine).flatten
      = some (as.map fun a => .assignment [a.1] (.integer a.2)) := by
  induction as with
  | nil =>
      rw [lines?]
      rfl
  | cons a as ih =>
      obtain ⟨hkey, hkeys⟩ := List.forall_mem_cons.1 hkeys
      obtain ⟨hword, hwords⟩ := List.forall_mem_cons.1 hwords
      have hpos : 0 < (assignmentLine a).length := by
        rw [assignmentLine, List.length_append, List.length_cons]
        omega
      have hshorter : (as.map assignmentLine).flatten.length
          < (assignmentLine a ++ (as.map assignmentLine).flatten).length := by
        rw [List.length_append]
        omega
      have hne : assignmentLine a ++ (as.map assignmentLine).flatten ≠ [] := by
        intro h
        rw [h] at hshorter
        cases hshorter
      rw [List.map_cons, List.flatten_cons, lines?, if_neg hne, line?_append hkey hword]
      dsimp only
      rw [dif_pos hshorter, ih hkeys hwords]
      rfl

-- ============================================================= documents

/-- What a new key leads to comes last. -/
theorem place_of_not_mem {key : String} (become : Option Node → Option Node) {entries : Entries}
    (h : key ∉ entries.map Prod.fst) :
    place key become entries = (become none).map fun node => entries ++ [(key, node)] := by
  induction entries with
  | nil => rfl
  | cons e entries ih =>
      obtain ⟨k, node⟩ := e
      rw [List.map_cons, List.mem_cons, not_or] at h
      obtain ⟨hk, hrest⟩ := h
      rw [place, if_neg (Ne.symm hk), ih hrest, Option.map_map]
      rfl

/-- Lines that give numbers to new keys add entries behind those that are
there. -/
theorem foldlM_add_assignments {as : List (String × Nat)} (entries : List (String × Value))
    (hnodup : ((entries ++ as.map assigned).map Prod.fst).Nodup) :
    (as.map fun a => Line.assignment [a.1] (.integer a.2)).foldlM Draft.add
        ⟨entries.map fun e => (e.1, .value e.2), []⟩
      = some ⟨(entries ++ as.map assigned).map fun e => (e.1, .value e.2), []⟩ := by
  induction as generalizing entries with
  | nil =>
      rw [List.map_nil, List.map_nil, List.append_nil]
      rfl
  | cons a as ih =>
      have hassoc : entries ++ (a :: as).map assigned
          = (entries ++ [assigned a]) ++ as.map assigned := by
        rw [List.append_assoc]
        rfl
      have hnew :
          a.1 ∉ (entries.map fun e => ((e.1, .value e.2) : String × Node)).map Prod.fst := by
        rw [List.map_append] at hnodup
        rw [List.map_map]
        intro hmem
        exact (List.nodup_append.1 hnodup).2.2 a.1 hmem a.1 (List.mem_cons_self ..) rfl
      have hadd : Draft.add ⟨entries.map fun e => (e.1, .value e.2), []⟩
          (.assignment [a.1] (.integer a.2))
            = some ⟨(entries ++ [assigned a]).map fun e => (e.1, .value e.2), []⟩ := by
        rw [Draft.add, within, put, place_of_not_mem _ hnew, List.map_append]
        rfl
      rw [hassoc] at hnodup ⊢
      rw [List.map_cons, List.foldlM_cons, hadd]
      exact ih _ hnodup

theorem finishedEntries_values (entries : List (String × Value)) :
    finishedEntries (entries.map fun e => (e.1, .value e.2)) = entries := by
  induction entries with
  | nil => rfl
  | cons e entries ih =>
      rw [List.map_cons, finishedEntries, ih]
      rfl

/-- The document of lines that give numbers to keys, all of them
different. -/
theorem Document.ofText?_assignments {text : String} {as : List (String × Nat)}
    (htext : text.toList = (as.map assignmentLine).flatten)
    (hkeys : ∀ a ∈ as, isBareKey a.1 = true) (hwords : ∀ a ∈ as, isWord a.2 = true)
    (hnodup : (as.map Prod.fst).Nodup) :
    Document.ofText? text = some ⟨as.map assigned⟩ := by
  have hmark : withoutMark (as.map assignmentLine).flatten = (as.map assignmentLine).flatten := by
    cases as with
    | nil => rfl
    | cons a as =>
        obtain ⟨c, cs, hcs, hall⟩ := exists_cons_of_isBareKey (hkeys a (List.mem_cons_self ..))
        rw [List.map_cons, List.flatten_cons, assignmentLine, hcs]
        unfold withoutMark
        split
        next heq =>
          exact absurd (List.cons.inj heq).1
            (ne_of_isBareKeyChar (hall c (List.mem_cons_self ..)) (by decide))
        next => rfl
  have hnodup : (([] ++ as.map assigned).map Prod.fst).Nodup := by
    rw [List.nil_append, List.map_map]
    exact hnodup
  have hdraft : (as.map fun a => Line.assignment [a.1] (.integer a.2)).foldlM Draft.add ⟨[], []⟩
      = some ⟨(as.map assigned).map fun e => (e.1, .value e.2), []⟩ :=
    foldlM_add_assignments [] hnodup
  unfold Document.ofText?
  rw [htext, hmark, lines?_flatten hkeys hwords]
  simp only [Option.bind_eq_bind, Option.bind_some, hdraft, finishedEntries_values]

end PosixFiles.Toml

import DbGuard.EventLog

/-!
# `DbGuard.Proofs.EventLog`: what the event log reads back

The file is read line by line, so what a write leaves is decided by the line that it continues.
`Glued` is what such a line can hold: beginnings of rows, one after the other. `Kept` is the
invariant: the lines before the last one, and the last one, give the events that are completely
written.

A write that stops leaves a torn line in the file of a process that goes on, and the next event
is glued to it. Only opening the log ends the line. `Apart` is the condition under which no
event is lost: a write that finds a torn line does not complete a row, and does not continue a
complete one.
-/

set_option autoImplicit false

namespace DbGuard.EventLog

open Machine (Reach Free)

variable {E : Type} {J : Json E} {keep : Nat}

/-! ### The ring -/

/-- The ring keeps the last `keep` events. -/
theorem rtake_push (es : List E) (ev : E) :
    push keep (es.rtake keep) ev = (es ++ [ev]).rtake keep := by
  cases keep with
  | zero => simp [push]
  | succ k =>
    rw [push, List.rtake_concat_succ, List.rtake_concat_succ]
    congr 1
    simp [List.rtake_eq_reverse_take_reverse, List.take_take]

/-- The ring that is loaded has the last events of the file. -/
theorem loadTail_eq (file : List Char) : loadTail J keep file = (events J file).rtake keep := by
  unfold loadTail
  induction events J file using List.reverseRecOn with
  | nil => simp
  | append_singleton es ev ih =>
    rw [List.foldl_append, ih, List.foldl_cons, List.foldl_nil, rtake_push]

/-! ### One line -/

/-- Beginnings of rows, one after the other. -/
def Glued (J : Json E) (texts : List (List Char)) : Prop :=
  ∀ text ∈ texts, text ≠ [] ∧ ∃ ev, text <+: J.dump ev

/-- The beginning of a row begins with its brace. -/
theorem head_of_begins {ev : E} {text : List Char} (h : text <+: J.dump ev) (hne : text ≠ []) :
    text.head? = some '\x7b' := by
  rw [← J.first ev]
  obtain ⟨c, text, rfl⟩ := List.exists_cons_of_ne_nil hne
  obtain ⟨rest, hrest⟩ := h
  rw [← hrest]
  rfl

/-- The beginning of a row loses only what is at its end. -/
theorem strip_of_begins {ev : E} {text : List Char} (h : text <+: J.dump ev) (hne : text ≠ []) :
    Py.strip text = text.rdropWhile Py.isSpace :=
  Py.strip_eq_rdropWhile (head_of_begins h hne) (by decide)

/-- An empty line has no event. -/
theorem readLine_nil : readLine J [] = none := rfl

/-- A row is not empty. -/
theorem dump_ne_nil (ev : E) : J.dump ev ≠ [] := by
  intro h
  have hfirst := J.first ev
  rw [h] at hfirst
  cases hfirst

/-- A row has no white space around it. -/
theorem strip_dump (ev : E) : Py.strip (J.dump ev) = J.dump ev := by
  rw [strip_of_begins (List.prefix_refl _) (dump_ne_nil ev), List.rdropWhile_eq_self_iff]
  intro hne
  have hlast := J.last ev
  rw [List.getLast?_eq_some_getLast hne, Option.some.injEq] at hlast
  rw [hlast]
  decide

/-- A row is read back as its event. -/
theorem readLine_dump (ev : E) : readLine J (J.dump ev) = some ev := by
  rw [readLine, strip_dump, if_neg (dump_ne_nil ev), J.parse_dump]

/-- An unfinished row gives nothing. -/
theorem readLine_unfinished {ev : E} {text : List Char} (h : text <+: J.dump ev)
    (hlt : text.length < (J.dump ev).length) : readLine J text = none := by
  by_cases hne : text = []
  · rw [hne, readLine_nil]
  · rw [readLine, strip_of_begins h hne]
    have hpre : text.rdropWhile Py.isSpace <+: text := List.rdropWhile_prefix _ _
    have hshort : (text.rdropWhile Py.isSpace).length < (J.dump ev).length :=
      hpre.length_le.trans_lt hlt
    split
    · rfl
    · refine J.unfinished ev _ (hpre.trans h) fun heq => ?_
      rw [heq] at hshort
      exact absurd hshort (lt_irrefl _)

/-- The white space at the end of two texts is that of the second one. -/
theorem rdropWhile_append {text text' : List Char} (h : text'.rdropWhile Py.isSpace ≠ []) :
    (text ++ text').rdropWhile Py.isSpace = text ++ text'.rdropWhile Py.isSpace := by
  unfold List.rdropWhile at h ⊢
  rw [List.reverse_append, List.dropWhile_append, if_neg]
  · simp
  · simpa using h

/-- Text behind the beginnings of rows makes a line unreadable. -/
theorem readLine_glued {texts : List (List Char)} (h : Glued J texts) (hne : texts ≠ [])
    {ev : E} {text : List Char} (htext : text <+: J.dump ev) (htext_ne : text ≠ []) :
    readLine J (texts.flatten ++ text) = none := by
  -- The glued line starts with an opening brace.
  obtain ⟨first, rest, rfl⟩ := List.exists_cons_of_ne_nil hne
  obtain ⟨hfirst, ev₀, hpre₀⟩ := h first List.mem_cons_self
  have hhead : ((first :: rest).flatten ++ text).head? = some '\x7b' := by
    have hh := head_of_begins hpre₀ hfirst
    obtain ⟨c, first, rfl⟩ := List.exists_cons_of_ne_nil hfirst
    simpa using hh
  -- What is left of the last text after stripping is not empty: its brace is no space.
  have hkeep : text.rdropWhile Py.isSpace ≠ [] := by
    intro hnil
    have hspace := List.rdropWhile_eq_nil_iff.mp hnil
    have hbrace := hspace '\x7b' (List.mem_of_mem_head? (head_of_begins htext htext_ne))
    exact absurd hbrace (by decide)
  have hpre : text.rdropWhile Py.isSpace <+: J.dump ev :=
    (List.rdropWhile_prefix _ _).trans htext
  -- Stripping the line strips its last text only.
  have hflat : (first :: rest).flatten ++ text.rdropWhile Py.isSpace =
      (first :: rest ++ [text.rdropWhile Py.isSpace]).flatten := by simp
  rw [readLine, Py.strip_eq_rdropWhile hhead (by decide), rdropWhile_append hkeep, hflat]
  split
  · rfl
  -- So the line is again texts that begin rows, and no decoder takes more than one.
  · refine J.trailing _ (by simp) fun t ht => ?_
    rcases List.mem_append.mp ht with ht | ht
    · exact h t ht
    · obtain rfl := List.mem_singleton.mp ht
      exact ⟨hkeep, ev, hpre⟩

/-! ### The file -/

/-- What the file has after its last line break. -/
def lastLine (file : List Char) : List Char := (file.splitOn '\n').getLastD []

/-- The lines of the file give `written`, and the last one has nothing but beginnings of rows. -/
def Kept (J : Json E) (file : List Char) (written : List E) : Prop :=
  ∃ done texts, file.splitOn '\n' = done ++ [texts.flatten] ∧ Glued J texts ∧
    done.filterMap (readLine J) ++ (readLine J texts.flatten).toList = written

/-- The events that are read are those that were written. -/
theorem Kept.events_eq {file : List Char} {written : List E} (h : Kept J file written) :
    events J file = written := by
  obtain ⟨done, texts, hfile, -, hwritten⟩ := h
  rw [events, hfile, List.filterMap_append, ← hwritten]
  cases hread : readLine J texts.flatten <;> simp [hread]

/-- The last line is what follows the last break. -/
theorem lastLine_eq {file last : List Char} {done : List (List Char)}
    (h : file.splitOn '\n' = done ++ [last]) : lastLine file = last := by
  simp [lastLine, h]

/-- A write that finds a torn line does not complete a row, and does not continue a complete
one. -/
def Apart (J : Json E) (r : Run E) : Move E → Prop
  | .append _ => lastLine r.log.file = []
  | .fail ev n => n = 0 ∨ lastLine r.log.file = [] ∨
      readLine J (lastLine r.log.file) = none ∧ n < (J.dump ev).length
  | .reopen => True

instance (r : Run E) (m : Move E) : Decidable (Apart J r m) :=
  match m with
  | .append _ => inferInstanceAs (Decidable (lastLine r.log.file = []))
  | .fail ev n => inferInstanceAs (Decidable (n = 0 ∨ lastLine r.log.file = [] ∨
      readLine J (lastLine r.log.file) = none ∧ n < (J.dump ev).length))
  | .reopen => .isTrue trivial

/-- A write that stops before the line break. -/
theorem Kept.begin {file : List Char} {written : List E} (ev : E) {n : Nat}
    (h : Kept J file written) (hn : n ≤ (J.dump ev).length)
    (happart : n = 0 ∨ lastLine file = [] ∨
      readLine J (lastLine file) = none ∧ n < (J.dump ev).length) :
    Kept J (file ++ (J.dump ev).take n)
      (if (J.dump ev).length ≤ n then written ++ [ev] else written) := by
  obtain ⟨done, texts, hfile, hglued, hwritten⟩ := h
  have hlast := lastLine_eq hfile
  have hpre : (J.dump ev).take n <+: J.dump ev := List.take_prefix _ _
  have hsplit : (file ++ (J.dump ev).take n).splitOn '\n' =
      done ++ [(texts ++ [(J.dump ev).take n]).flatten] := by
    -- A row has no newline, so what is written of it extends the last line.
    have htext : ((J.dump ev).take n).splitOn '\n' = [(J.dump ev).take n] :=
      Py.splitOn_of_notMem fun hmem => J.one_line ev (List.mem_of_mem_take hmem)
    rw [Py.splitOn_append hfile htext]
    simp
  -- Nothing was written.
  by_cases hzero : n = 0
  · have hlt : ¬ (J.dump ev).length ≤ n := by
      have hpos := List.length_pos_iff.mpr (dump_ne_nil (J := J) ev)
      omega
    subst hzero
    rw [if_neg hlt, List.take_zero, List.append_nil]
    exact ⟨done, texts, hfile, hglued, hwritten⟩
  have hne : (J.dump ev).take n ≠ [] := by
    simp [hzero, dump_ne_nil]
  refine ⟨done, texts ++ [(J.dump ev).take n], hsplit, ?_, ?_⟩
  -- The line is made of beginnings of rows as before, with this one behind.
  · intro text ht
    rcases List.mem_append.mp ht with ht | ht
    · exact hglued text ht
    · obtain rfl := List.mem_singleton.mp ht
      exact ⟨hne, ev, hpre⟩
  · by_cases hempty : texts.flatten = []
    · -- The line starts here, so it is read as what was written of the row.
      rw [hempty, readLine_nil] at hwritten
      rw [List.flatten_append, hempty, List.nil_append, List.flatten_singleton]
      split
      · rw [List.take_of_length_le (by assumption), readLine_dump, ← hwritten]
        simp
      · rename_i hshort
        rw [readLine_unfinished hpre (by rw [List.length_take]; omega), hwritten]
    · -- The line is torn. It gave nothing before the write, and gives nothing after it.
      rw [hlast] at happart
      obtain ⟨hnone, hlt⟩ := (happart.resolve_left hzero).resolve_left hempty
      have htexts : texts ≠ [] := fun hnil => hempty (by rw [hnil]; rfl)
      rw [hnone] at hwritten
      rw [if_neg (not_le.mpr hlt), List.flatten_append, List.flatten_singleton,
        readLine_glued hglued htexts hpre hne, hwritten]

/-- A line break after the last line. -/
theorem Kept.break_line {file : List Char} {written : List E} (h : Kept J file written) :
    Kept J (file ++ ['\n']) written := by
  obtain ⟨done, texts, hfile, -, hwritten⟩ := h
  refine ⟨done ++ [texts.flatten], [], ?_, by simp [Glued], ?_⟩
  · rw [Py.splitOn_append_sep, hfile]
    rfl
  · rw [← hwritten, List.filterMap_append]
    cases hread : readLine J texts.flatten <;> simp [hread, readLine_nil]

/-- A write of a row, or of its beginning, onto a file that is kept. -/
theorem Kept.write {file : List Char} {written : List E} (ev : E) (n : Nat)
    (h : Kept J file written)
    (happart : n = 0 ∨ lastLine file = [] ∨
      readLine J (lastLine file) = none ∧ n < (J.dump ev).length) :
    Kept J (file ++ (line J ev).take n)
      (if (J.dump ev).length ≤ n then written ++ [ev] else written) := by
  by_cases hn : n ≤ (J.dump ev).length
  · rw [line, List.take_append_of_le_length hn]
    exact h.begin ev hn happart
  · -- The whole line is written, so the one before it has ended.
    have hempty : lastLine file = [] := by
      rcases happart with hzero | hempty | ⟨-, hlt⟩
      · omega
      · exact hempty
      · omega
    have hfull : (line J ev).take n = J.dump ev ++ ['\n'] := by
      apply List.take_of_length_le
      simp [line]
      omega
    have hrow : Kept J (file ++ J.dump ev) (written ++ [ev]) := by
      have hrow := h.begin ev (Nat.le_refl _) (.inr (.inl hempty))
      rwa [List.take_length, if_pos (Nat.le_refl _)] at hrow
    rw [hfull, ← List.append_assoc, if_pos (by omega)]
    exact hrow.break_line

/-- The break behind a torn line keeps the file. -/
theorem Kept.terminate {file : List Char} {written : List E} (h : Kept J file written) :
    Kept J (terminateTornLine file) written := by
  unfold terminateTornLine
  split
  · exact h
  · split
    · exact h
    · exact h.break_line

/-- After opening, the last line is empty. -/
theorem lastLine_terminateTornLine (file : List Char) :
    lastLine (terminateTornLine file) = [] := by
  have hbreak : ∀ file : List Char, lastLine (file ++ ['\n']) = [] := fun file =>
    lastLine_eq (Py.splitOn_append_sep file)
  unfold terminateTornLine
  split
  · rename_i hnone
    rw [List.getLast?_eq_none_iff.mp hnone]
    rfl
  · rename_i c hsome
    split
    · rename_i hc
      obtain ⟨init, rfl⟩ := List.getLast?_eq_some_iff.mp hsome
      rw [hc]
      exact hbreak init
    · exact hbreak file

/-- So after opening every move is. -/
theorem apart_reopen (r : Run E) (m : Move E) :
    Apart J { r with log := r.log.reopen J keep } m := by
  have hempty := lastLine_terminateTornLine r.log.file
  cases m with
  | append ev => exact hempty
  | fail ev n => exact .inr (.inl hempty)
  | reopen => trivial

/-! ### Runs -/

/-- The invariant of a run. -/
structure Sound (J : Json E) (r : Run E) : Prop where
  kept : Kept J r.log.file r.written
  returned : r.returned.Sublist r.written

/-- Every move keeps the invariant. -/
theorem sound_step {r r' : Run E} {m : Move E} (h : Sound J r) (hok : Apart J r m)
    (hm : step J keep r m = some r') : Sound J r' := by
  cases m with
  | append ev =>
    cases hm
    have hrow := h.kept.write ev (line J ev).length (.inr (.inl hok))
    rw [if_pos (by simp [line])] at hrow
    exact ⟨hrow, h.returned.append (List.Sublist.refl _)⟩
  | fail ev n =>
    cases hm
    refine ⟨h.kept.write ev n hok, ?_⟩
    show r.returned.Sublist (if (J.dump ev).length ≤ n then r.written ++ [ev] else r.written)
    split
    · exact h.returned.trans (List.sublist_append_left _ _)
    · exact h.returned
  | reopen =>
    cases hm
    exact ⟨h.kept.terminate, h.returned⟩

/-- An empty log is sound. -/
theorem sound_start : Sound J ({} : Run E) where
  kept := ⟨[], [], rfl, by simp [Glued], rfl⟩
  returned := List.Sublist.refl _

/-- In a run whose writes are all `Apart`, opening the log gives the last events whose text is
completely written, and those whose `append` returned are among them. -/
theorem read_back_of_apart (J : Json E) (keep : Nat) {r : Run E}
    (hrun : Reach (step J keep) (Apart J) {} r) :
    (r.log.reopen J keep).ring = r.written.rtake keep ∧ r.returned.Sublist r.written := by
  have hsound : Sound J r :=
    hrun.invariant sound_start fun _ _ _ _ h hok hm => sound_step h hok hm
  exact ⟨by rw [reopen, loadTail_eq, hsound.kept.events_eq], hsound.returned⟩

/-! ### Two events -/

/-- Two events of one set. -/
inductive Sample
  | suspect
  | healthy
deriving DecidableEq

/-- The fields of a row that are null in both. -/
def Sample.nulls : List String :=
  ["old_primary", "new_primary", "trigger", "detect", "steps", "total_s", "watermark_gtid",
   "rejoin", "clone", "stall_s", "note"]

/-- The row of an event with nothing but a time, a set and a type. -/
def Sample.row (ts type : String) : List Char :=
  "\x7b\"ts\":".toList ++ ts.toList ++ ",\"rs\":\"rs1\",\"type\":".toList ++ type.toList ++
    ",\"mode\":\"dbguard\"".toList ++
    Sample.nulls.flatMap (fun name => ",\"".toList ++ name.toList ++ "\":null".toList) ++ ['\x7d']

/-- The row of an event. -/
def Sample.dump : Sample → List Char
  | .suspect => Sample.row "1.0" "\"suspect\""
  | .healthy => Sample.row "2.0" "\"healthy\""

/-- The rows of the two events are read back, and no other text is. -/
def Sample.parse (text : List Char) : Option Sample :=
  if text = Sample.dump .suspect then some .suspect
  else if text = Sample.dump .healthy then some .healthy
  else none

/-- What is read back as an event is its row. -/
theorem Sample.parse_eq_some {text : List Char} {ev : Sample} (h : Sample.parse text = some ev) :
    text = ev.dump := by
  unfold Sample.parse at h
  split at h
  · cases h
    assumption
  · split at h
    · cases h
      assumption
    · cases h

/-- Where a row has one opening brace, at its start, no row is glued together. -/
theorem flatten_ne_dump {dump : E → List Char} (hfirst : ∀ ev, (dump ev).head? = some '\x7b')
    (htail : ∀ ev, '\x7b' ∉ (dump ev).tail) {texts : List (List Char)} (hlen : 2 ≤ texts.length)
    (htexts : ∀ text ∈ texts, text ≠ [] ∧ ∃ ev, text <+: dump ev) (ev : E) :
    texts.flatten ≠ dump ev := by
  intro hflat
  obtain ⟨text, rest, rfl⟩ := List.exists_cons_of_length_pos (by omega : 0 < texts.length)
  rw [List.length_cons] at hlen
  obtain ⟨text', rest, rfl⟩ := List.exists_cons_of_length_pos (by omega : 0 < rest.length)
  obtain ⟨hne, -, -⟩ := htexts text List.mem_cons_self
  obtain ⟨hne', ev', tail, hpre⟩ := htexts text' (by simp)
  obtain ⟨c, text, rfl⟩ := List.exists_cons_of_ne_nil hne
  obtain ⟨c', text', rfl⟩ := List.exists_cons_of_ne_nil hne'
  have hbrace : c' = '\x7b' := by
    have hfirst' := hfirst ev'
    rw [← hpre] at hfirst'
    exact Option.some.inj hfirst'
  have hmem : c' ∈ (dump ev).tail := by
    rw [← hflat]
    simp
  exact htail ev (hbrace ▸ hmem)

/-- A row begins with a brace. -/
theorem Sample.first (ev : Sample) : ev.dump.head? = some '\x7b' := by
  cases ev <;> decide +kernel

/-- There is no other brace in it. -/
theorem Sample.brace_notMem_tail (ev : Sample) : '\x7b' ∉ ev.dump.tail := by
  cases ev <;> decide +kernel

/-- The two rows are equally long. -/
theorem Sample.length_dump (ev ev' : Sample) : ev.dump.length = ev'.dump.length := by
  cases ev <;> cases ev' <;> decide +kernel

/-- How the two events are written and read. -/
def Sample.json : Json Sample where
  dump := Sample.dump
  parse := Sample.parse
  parse_dump ev := by cases ev <;> decide +kernel
  first := Sample.first
  last ev := by cases ev <;> decide +kernel
  one_line ev := by cases ev <;> decide +kernel
  unfinished ev text hpre hne := by
    by_contra hsome
    obtain ⟨ev', hparse⟩ := Option.ne_none_iff_exists'.mp hsome
    have hdump := Sample.parse_eq_some hparse
    rw [hdump] at hpre hne
    exact hne (hpre.eq_of_length (Sample.length_dump ev' ev))
  trailing texts hlen htexts := by
    by_contra hsome
    obtain ⟨ev, hparse⟩ := Option.ne_none_iff_exists'.mp hsome
    exact flatten_ne_dump Sample.first Sample.brace_notMem_tail hlen htexts ev
      (Sample.parse_eq_some hparse)

/-- A write stops after ten characters, and the log is opened before the next event. -/
def repaired : Run Sample :=
  Machine.run (step Sample.json 2000) {} [.fail .suspect 10, .reopen, .append .healthy]

/-- After the repair the events that were written are read back. -/
theorem read_back_of_apart_repaired :
    (repaired.log.reopen Sample.json 2000).ring = repaired.written.rtake 2000 ∧
      repaired.returned.Sublist repaired.written :=
  read_back_of_apart Sample.json 2000
    (.tail (.tail (.tail .refl (m := .fail .suspect 10) (.inr (.inl rfl)) rfl)
      (m := .reopen) trivial rfl) (m := .append .healthy) (apart_reopen _ _) rfl)

/-- An event behind a torn line of a file is not read back. -/
theorem events_glued (J : Json E) (ev ev' : E) {n : Nat} (hpos : n ≠ 0) :
    events J ((J.dump ev).take n ++ line J ev') = [] := by
  have hpre : (J.dump ev).take n <+: J.dump ev := List.take_prefix _ _
  have hne : (J.dump ev).take n ≠ [] := by simp [hpos, dump_ne_nil]
  have hbegin : ((J.dump ev).take n).splitOn '\n' = [(J.dump ev).take n] :=
    Py.splitOn_of_notMem fun hmem => J.one_line ev (List.mem_of_mem_take hmem)
  have hrest : (line J ev').splitOn '\n' = [J.dump ev', []] := by
    rw [line, Py.splitOn_append_sep, Py.splitOn_of_notMem (J.one_line ev')]
    rfl
  have hglued : readLine J ([(J.dump ev).take n].flatten ++ J.dump ev') = none :=
    readLine_glued (by simpa [Glued] using ⟨⟨hpos, dump_ne_nil ev⟩, ev, hpre⟩)
      (List.cons_ne_nil _ _) (List.prefix_refl (J.dump ev')) (dump_ne_nil ev')
  rw [List.flatten_singleton] at hglued
  have hsplit : ((J.dump ev).take n ++ line J ev').splitOn '\n' =
      [(J.dump ev).take n ++ J.dump ev', []] :=
    Py.splitOn_append (show _ = [] ++ [_] from hbegin) hrest
  rw [events, hsplit]
  simp [hglued, readLine_nil]

/-- A write stops, the process goes on with the next event, and that event is lost. -/
theorem lost_of_glued (J : Json E) (keep : Nat) (ev ev' : E) {n : Nat} (hpos : n ≠ 0)
    (hlt : n < (J.dump ev).length) :
    ∃ r, Reach (step J keep) Free {} r ∧ r.written = [ev'] ∧ r.returned = [ev'] ∧
      (r.log.reopen J keep).ring = [] := by
  let torn : Run E := { log := write J keep {} ev n }
  have hfail : step J keep {} (.fail ev n) = some torn := by
    rw [step, if_neg (not_le.mpr hlt)]
  refine ⟨⟨torn.log.append J keep ev', [ev'], [ev']⟩, ?_, rfl, rfl, ?_⟩
  · exact .tail (.tail .refl trivial hfail) (m := .append ev') trivial rfl
  · have hfile : (torn.log.append J keep ev').file = (J.dump ev).take n ++ line J ev' := by
      show ([] ++ (line J ev).take n) ++ (line J ev').take (line J ev').length = _
      rw [List.nil_append, List.take_length, line, List.take_append_of_le_length hlt.le]
    rw [reopen, loadTail_eq, hfile, events_glued J ev ev' hpos, List.rtake_nil]

/-- The event whose `append` returned is not read back. -/
theorem glued_event_lost :
    ¬ ∀ (J : Json Sample) (keep : Nat) (r : Run Sample), Reach (step J keep) Free {} r →
      (r.log.reopen J keep).ring = r.written.rtake keep := by
  intro h
  obtain ⟨r, hrun, hwritten, -, hring⟩ :=
    lost_of_glued Sample.json 2000 .suspect .healthy (n := 10) (by decide) (by decide +kernel)
  have heq := h Sample.json 2000 r hrun
  rw [hring, hwritten] at heq
  cases heq

end DbGuard.EventLog

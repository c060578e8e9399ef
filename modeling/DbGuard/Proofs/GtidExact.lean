import DbGuard.Proofs.GtidGrammar

/-!
# `DbGuard.Proofs.GtidExact`: which texts the parser reads as the grammar says

The grammar and the parser agree on a field that is neither sloppy nor too long. This module
lifts that to parts and to texts. `parse_exact_iff` says that nothing else differs: a text is
read exactly as the grammar says if and only if it is not accepted with a sloppy spelling and
is no grammatical text with a number that is too long.
-/

set_option autoImplicit false

namespace DbGuard

namespace GtidSet

/-! ### Parts -/

/-- The checks of the parser on one part. -/
def LoosePart (part : List Char) : Prop :=
  ∃ head fields, part.splitOn ':' = head :: fields ∧ uuidRe (Py.lower (Py.strip head)) = true ∧
    (∀ f ∈ fields, LooseField f) ∧ ∃ f ∈ fields, ∃ c ∈ f.head?, Py.isDigit c = true

/-- A part with a partly dashed uuid or a sloppy field. -/
def SloppyPart (part : List Char) : Prop :=
  ∃ head fields, part.splitOn ':' = head :: fields ∧
    ((head.count '-' ≠ 0 ∧ head.count '-' ≠ 4) ∨ ∃ f ∈ fields, SloppyField f)

/-- A part with a number of more than 4300 digits. -/
def LongPart (part : List Char) : Prop :=
  ∃ head fields, part.splitOn ':' = head :: fields ∧ ∃ f ∈ fields, LongField f

/-- A uuid is accepted exactly if it matches in lower case. -/
theorem normUuid_isOk (head : List Char) :
    (∃ u, normUuid head = .ok u) ↔ uuidRe (Py.lower (Py.strip head)) = true := by
  simp only [normUuid]
  split
  · rename_i h
    refine iff_of_false ?_ (by simpa using h)
    rintro ⟨u, hu⟩
    cases hu
  · rename_i h
    exact iff_of_true ⟨_, rfl⟩ (by simpa using h)

/-- Related lists have related members. -/
theorem forall₂_left {α β : Type} {R : α → β → Prop} {as : List α} {bs : List β}
    (h : List.Forall₂ R as bs) : ∀ a ∈ as, ∃ b ∈ bs, R a b := by
  induction h with
  | nil => simp
  | @cons a b as bs hab _ ih =>
      intro a' ha'
      rcases List.mem_cons.mp ha' with rfl | ha'
      · exact ⟨b, List.mem_cons_self, hab⟩
      · obtain ⟨b', hb', hrel⟩ := ih a' ha'
        exact ⟨b', List.mem_cons_of_mem _ hb', hrel⟩

/-- Where each element has a counterpart, so has the list. -/
theorem exists_forall₂ {α β : Type} {R : α → β → Prop} :
    ∀ {as : List α}, (∀ a ∈ as, ∃ b, R a b) → ∃ bs, List.Forall₂ R as bs := by
  intro as
  induction as with
  | nil => exact fun _ => ⟨[], .nil⟩
  | cons a as ih =>
      intro h
      obtain ⟨b, hb⟩ := h a List.mem_cons_self
      obtain ⟨bs, hbs⟩ := ih fun a' ha' => h a' (List.mem_cons_of_mem _ ha')
      exact ⟨b :: bs, .cons hb hbs⟩

/-- A part has an interval exactly if a field of it begins with a digit. -/
theorem any_isInterval_iff {fields : List (List Char)} {fs : List Field}
    (h : List.Forall₂ (fun f fd => fieldOf f = some fd) fields fs) :
    fs.any Field.isInterval = true ↔ ∃ f ∈ fields, ∃ c ∈ f.head?, Py.isDigit c = true := by
  induction h with
  | nil => simp
  | @cons f fd fields fs hf _ ih =>
      cases f with
      | nil => cases hf
      | cons c rest =>
          have hhead := isInterval_of_fieldOf hf
          simp only [List.any_cons, Bool.or_eq_true, ih, hhead, List.mem_cons,
            exists_eq_or_imp, List.head?_cons, Option.mem_some_iff, exists_eq_left']

/-- The checks on a part are those for reading it. -/
theorem loosePart_iff (part : List Char) : LoosePart part ↔ ∃ p, PartOf part p := by
  constructor
  · rintro ⟨head, fields, hsplit, hre, hfields, hinterval⟩
    obtain ⟨u, hu⟩ := (normUuid_isOk head).mpr hre
    obtain ⟨fs, hfs⟩ := exists_forall₂ fun f hf => (looseField_iff f).mp (hfields f hf)
    exact ⟨(u, fs), ⟨head, fields, hsplit, hu, hfs⟩, (any_isInterval_iff hfs).mpr hinterval⟩
  · rintro ⟨p, hp⟩
    obtain ⟨head, fields, hsplit, hu, hfs⟩ := hp.uuid
    refine ⟨head, fields, hsplit, (normUuid_isOk head).mp ⟨_, hu⟩, fun f hf => ?_,
      (any_isInterval_iff hfs).mp hp.interval⟩
    obtain ⟨fd, -, hfd⟩ := forall₂_left hfs f hf
    exact (looseField_iff f).mpr ⟨fd, hfd⟩

/-- No part of the grammar is sloppy. -/
theorem PartText.not_sloppy {part : List Char} {p : Part} (h : PartText part p) :
    ¬ SloppyPart part := by
  obtain ⟨head, fields, hsplit, huuid, -, hfields⟩ := h.spelled
  rintro ⟨head', fields', hsplit', hsloppy⟩
  obtain ⟨rfl, rfl⟩ := List.cons.inj (hsplit.symm.trans hsplit')
  rcases hsloppy with hdash | ⟨f, hf, hsloppy⟩
  · have hcount := huuid.count_dash
    rw [count_dash_map] at hcount
    omega
  · obtain ⟨fd, -, hfd⟩ := forall₂_left hfields f hf
    exact hfd.not_sloppy hsloppy

/-- The parser reads a part of the grammar if its numbers are not too long. -/
theorem PartText.partOf {part : List Char} {p : Part} (h : PartText part p)
    (hl : ¬ LongPart part) : PartOf part p := by
  obtain ⟨head, fields, hsplit, huuid, hp, hfields⟩ := h.spelled
  have hu : normUuid head = .ok p.1 := by
    rw [hp]
    exact normUuid_of_uuidText huuid
  have hshort : ∀ f ∈ fields, ¬ LongField f := fun f hf hlong =>
    hl ⟨head, fields, hsplit, f, hf, hlong⟩
  have hfs : List.Forall₂ (fun f fd => fieldOf f = some fd) fields p.2 := by
    have hboth := (List.forall₂_and_left fields p.2).mpr ⟨hshort, hfields⟩
    exact hboth.imp fun f fd hf => hf.2.fieldOf_eq.2 hf.1
  exact ⟨⟨head, fields, hsplit, hu, hfs⟩, h.interval⟩

/-- The parser does not read a part of the grammar with a number that is too long. -/
theorem PartText.not_partOf {part : List Char} {p : Part} (h : PartText part p)
    (hl : LongPart part) : ¬ ∃ p', PartOf part p' := by
  obtain ⟨head, fields, hsplit, -, -, hfields⟩ := h.spelled
  obtain ⟨head', fields', hsplit', f, hf, hlong⟩ := hl
  obtain ⟨rfl, rfl⟩ := List.cons.inj (hsplit.symm.trans hsplit')
  rintro ⟨p', hp'⟩
  obtain ⟨head', fields', hsplit', -, hfs⟩ := hp'.uuid
  obtain ⟨rfl, rfl⟩ := List.cons.inj (hsplit.symm.trans hsplit')
  obtain ⟨fd, -, hfd⟩ := forall₂_left hfields f hf
  obtain ⟨fd', -, hfd'⟩ := forall₂_left hfs f hf
  rw [hfd.fieldOf_eq.1 hlong] at hfd'
  cases hfd'

/-- The pieces of a text without white space have no white space. -/
theorem not_isSpace_of_splitOn {part head : List Char}
    (hspace : ∀ c ∈ part, Py.isSpace c = false) (hhead : head ∈ part.splitOn ':') :
    ∀ c ∈ head, Py.isSpace c = false := by
  have hcolon : (!Py.isSpace ':') = true := by decide
  have hself : part.filter (fun c => !Py.isSpace c) = part :=
    List.filter_eq_self.mpr fun c hc => by simp [hspace c hc]
  have hcut := Py.splitOn_filter (p := fun c => !Py.isSpace c) hcolon part
  rw [hself] at hcut
  rw [hcut] at hhead
  obtain ⟨piece, -, rfl⟩ := List.mem_map.mp hhead
  intro c hc
  simpa using (List.mem_filter.mp hc).2

/-- A part that the parser reads is in the grammar if it is not sloppy. -/
theorem partText_of_partOf {part : List Char} {p : Part}
    (hspace : ∀ c ∈ part, Py.isSpace c = false) (hs : ¬ SloppyPart part) (h : PartOf part p) :
    PartText part p := by
  obtain ⟨head, fields, hsplit, hu, hfs⟩ := h.uuid
  have hhead : ∀ c ∈ head, Py.isSpace c = false := by
    refine not_isSpace_of_splitOn hspace ?_
    rw [hsplit]
    exact List.mem_cons_self
  have hcount : head.count '-' = 0 ∨ head.count '-' = 4 := by
    by_contra hno
    rw [not_or] at hno
    exact hs ⟨head, fields, hsplit, .inl hno⟩
  have huuid := uuidText_of_normUuid hhead hu hcount
  have hp : p.1 = canonicalUuid head := by
    have heq := normUuid_of_uuidText huuid
    rw [hu] at heq
    exact Except.ok.inj heq
  have hneat : ∀ f ∈ fields, ¬ SloppyField f := fun f hf hsloppy =>
    hs ⟨head, fields, hsplit, .inr ⟨f, hf, hsloppy⟩⟩
  have hfields : List.Forall₂ FieldText fields p.2 := by
    have hboth := (List.forall₂_and_left fields p.2).mpr ⟨hneat, hfs⟩
    exact hboth.imp fun f fd hf => fieldText_of_fieldOf hf.1 hf.2
  exact ⟨⟨head, fields, hsplit, huuid, hp, hfields⟩, h.interval⟩

/-- A part is read in one way only. -/
theorem PartOf.unique {part : List Char} {p p' : Part} (h : PartOf part p)
    (h' : PartOf part p') : p = p' := by
  obtain ⟨head, fields, hsplit, hu, hfs⟩ := h.uuid
  obtain ⟨head', fields', hsplit', hu', hfs'⟩ := h'.uuid
  obtain ⟨rfl, rfl⟩ := List.cons.inj (hsplit.symm.trans hsplit')
  rw [hu] at hu'
  refine Prod.ext (Except.ok.inj hu') ?_
  generalize p.2 = fs at hfs
  generalize p'.2 = fs' at hfs'
  clear hsplit hsplit'
  induction hfs generalizing fs' with
  | nil =>
      cases hfs'
      rfl
  | cons hf _ ih =>
      cases hfs' with
      | cons hf' hrest =>
          rw [hf] at hf'
          rw [Option.some.inj hf', ih _ hrest]

/-- The parts of a text have no white space. -/
theorem not_isSpace_of_parts {text : String} {part : List Char} (h : part ∈ parts text) :
    ∀ c ∈ part, Py.isSpace c = false := by
  rw [parts_eq] at h
  obtain ⟨raw, -, rfl⟩ := List.mem_map.mp (List.mem_filter.mp h).1
  intro c hc
  simpa using (List.mem_filter.mp hc).2

/-! ### Texts -/

/-- A text is read as the grammar says: it is accepted if and only if it is in the grammar,
and each part adds what its fields name to the canonical spelling of its uuid. -/
structure Exact (text : String) : Prop where
  accepted : (∃ s, parse text = .ok s) ↔ Grammar text
  keys : ∀ s, parse text = .ok s → ∀ g, g ∈ s ↔ ∃ part ∈ parts text, ∃ p, PartOf part p ∧
    NamedBy (canonicalUuid ((part.splitOn ':').headD [])) [] p.2 g

/-- What an accepted text without sloppy parts names. -/
theorem named_iff_of_neat {text : String} {ps : List Part}
    (hps : List.Forall₂ PartOf (parts text) ps)
    (hneat : ∀ part ∈ parts text, ¬ SloppyPart part) (g : Gtid) :
    Named ps g ↔ ∃ part ∈ parts text, ∃ p, PartOf part p ∧
      NamedBy (canonicalUuid ((part.splitOn ':').headD [])) [] p.2 g := by
  have huuid : ∀ part ∈ parts text, ∀ p, PartOf part p →
      p.1 = canonicalUuid ((part.splitOn ':').headD []) := by
    intro part hpart p hp
    have htext := partText_of_partOf (not_isSpace_of_parts hpart) (hneat part hpart) hp
    obtain ⟨head, fields, hsplit, -, hcanon, -⟩ := htext.spelled
    rw [hsplit]
    exact hcanon
  constructor
  · rintro ⟨p, hp, hnamed⟩
    obtain ⟨part, hpart, hpartOf⟩ := forall₂_left hps.flip p hp
    refine ⟨part, hpart, p, hpartOf, ?_⟩
    rw [← huuid part hpart p hpartOf]
    exact hnamed
  · rintro ⟨part, hpart, p, hpartOf, hnamed⟩
    obtain ⟨p', hp', hpartOf'⟩ := forall₂_left hps part hpart
    refine ⟨p', hp', ?_⟩
    rw [← huuid part hpart p hpartOf] at hnamed
    rw [hpartOf'.unique hpartOf]
    exact hnamed

/-- The parser reads a text exactly if and only if it does not accept it with a sloppy
spelling, and its numbers are not too long where it is in the grammar. -/
theorem parse_exact_iff (text : String) :
    Exact text ↔
      ((∀ part ∈ parts text, LoosePart part) → ∀ part ∈ parts text, ¬ SloppyPart part) ∧
      (Grammar text → ∀ part ∈ parts text, ¬ LongPart part) := by
  have haccepts : (∃ s, parse text = .ok s) ↔ ∀ part ∈ parts text, LoosePart part := by
    rw [parse_ok_iff]
    exact forall₂_congr fun part _ => (loosePart_iff part).symm
  constructor
  · intro h
    refine ⟨fun hloose part hpart => ?_, fun hgrammar part hpart hlong => ?_⟩
    · obtain ⟨p, hp⟩ := h.accepted.mp (haccepts.mpr hloose) part hpart
      exact hp.not_sloppy
    · obtain ⟨p, hp⟩ := hgrammar part hpart
      have hloose := haccepts.mp (h.accepted.mpr hgrammar) part hpart
      exact hp.not_partOf hlong ((loosePart_iff part).mp hloose)
  · rintro ⟨hneat, hshort⟩
    refine ⟨?_, fun s hs g => ?_⟩
    · rw [haccepts]
      constructor
      · intro hloose part hpart
        obtain ⟨p, hp⟩ := (loosePart_iff part).mp (hloose part hpart)
        exact ⟨p, partText_of_partOf (not_isSpace_of_parts hpart) (hneat hloose part hpart) hp⟩
      · intro hgrammar part hpart
        obtain ⟨p, hp⟩ := hgrammar part hpart
        exact (loosePart_iff part).mpr ⟨p, hp.partOf (hshort hgrammar part hpart)⟩
    · obtain ⟨ps, hps, hmem⟩ := parts_of_parse hs
      rw [hmem]
      exact named_iff_of_neat hps (hneat (haccepts.mp ⟨s, hs⟩)) g

/-- A partly dashed uuid is accepted, although the grammar has no such uuid. -/
theorem partly_dashed_accepted : ¬ Exact "3e11fa47-71ca11e19e33c80aa9429562:1" := by
  intro h
  have haccepted : ∃ s, parse "3e11fa47-71ca11e19e33c80aa9429562:1" = .ok s := by
    have hok : (parse "3e11fa47-71ca11e19e33c80aa9429562:1").isOk = true := by decide +kernel
    cases hparse : parse "3e11fa47-71ca11e19e33c80aa9429562:1" with
    | ok s => exact ⟨s, rfl⟩
    | error e =>
        rw [hparse] at hok
        cases hok
  have hpart : "3e11fa47-71ca11e19e33c80aa9429562:1".toList ∈
      parts "3e11fa47-71ca11e19e33c80aa9429562:1" := by decide +kernel
  obtain ⟨p, hp⟩ := h.accepted.mp haccepted _ hpart
  refine hp.not_sloppy ⟨"3e11fa47-71ca11e19e33c80aa9429562".toList, [['1']], ?_, .inl ?_⟩
  · decide +kernel
  · decide +kernel

end GtidSet

end DbGuard

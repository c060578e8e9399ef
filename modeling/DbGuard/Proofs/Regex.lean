import Mathlib.Data.List.Forall2
import DbGuard.PyRegex

/-!
# `DbGuard.Proofs.Regex`: the first match of a pattern

Python takes the first of the ways to match a pattern. `First` says where it ends. A part of a
pattern that has a first end leads on from it, so as long as no part has to give back what it
took, the first match of a pattern comes part by part (`First.seq`). A greedy repetition takes
as much as it can (`First.star_cons`, `First.star_stop`).
-/

set_option autoImplicit false

namespace Py

/-! ### Case -/

/-- The code of a letter in upper case. -/
theorem toNat_toUpper (c : Char) :
    c.toUpper.toNat = if 97 ≤ c.toNat ∧ c.toNat ≤ 122 then c.toNat - 32 else c.toNat := by
  unfold Char.toUpper
  split
  · rename_i h
    have hge : 97 ≤ c.toNat := h.1
    have hle : c.toNat ≤ 122 := h.2
    have hval : 97 ≤ c.val.toNat := hge
    have hval' : c.val.toNat ≤ 122 := hle
    rw [if_pos ⟨hge, hle⟩]
    show (c.val + ('A'.val - 'a'.val)).toNat = c.val.toNat - 32
    have hdiff : ('A'.val - 'a'.val).toNat = 2 ^ 32 - 32 := by decide
    rw [UInt32.toNat_add, hdiff]
    omega
  · rename_i h
    rw [if_neg]
    rintro ⟨hge, hle⟩
    exact h ⟨hge, hle⟩

/-- Upper case is undone by lower case. -/
theorem toLower_toUpper (c : Char) : c.toUpper.toLower = c.toLower := by
  refine Char.toNat_inj.mp ?_
  rw [toNat_toLower, toNat_toLower, toNat_toUpper]
  split_ifs <;> omega

/-- And lower case by upper case. -/
theorem toUpper_toLower (c : Char) : c.toLower.toUpper = c.toUpper := by
  refine Char.toNat_inj.mp ?_
  rw [toNat_toUpper, toNat_toUpper, toNat_toLower]
  split_ifs <;> omega

/-- In ASCII the upper case of a character is a character. -/
theorem upperChar_of_ascii {c : Char} (h : Ascii c) : upperChar c = [c.toUpper] := by
  unfold upperChar
  split <;> first | rfl | exact absurd h (by decide)

/-- A text that is an ASCII word in capitals when put in capitals. -/
theorem upper_of_map {w : List Char} {word : String} (h : w.map Char.toUpper = word.toList)
    (hascii : word.toList.all (fun c => c.toNat < 128) = true) : upper w = word.toList := by
  have hall : ∀ c ∈ w, upperChar c = [c.toUpper] := by
    intro c hc
    refine upperChar_of_ascii ?_
    have hmem : c.toUpper ∈ word.toList := h ▸ List.mem_map_of_mem hc
    have hlt : c.toUpper.toNat < 128 := of_decide_eq_true (List.all_eq_true.mp hascii _ hmem)
    have hnat := toNat_toUpper c
    show c.toNat < 128
    split at hnat <;> omega
  rw [upper, List.flatMap_congr hall, ← List.map_eq_flatMap]
  exact h

namespace Re

variable {alnum : Char → Bool} {r s : Re} {at_ e e' : Place} {b : Option Char}
  {w rest : List Char} {gs : List (List Char)}

/-- The first way to match a pattern at a place ends here. -/
def First (alnum : Char → Bool) (r : Re) (at_ e : Place) : Prop :=
  (r.ends alnum at_).head? = some e

/-- There is no way to match a pattern at a place. -/
def Fails (alnum : Char → Bool) (r : Re) (at_ : Place) : Prop := r.ends alnum at_ = []

/-! ### Parts of a pattern -/

/-- The first result of the first element comes first. -/
theorem head?_flatMap {α β : Type*} {l : List α} {f : α → List β} {a : α} {b : β}
    (hl : l.head? = some a) (hf : (f a).head? = some b) : (l.flatMap f).head? = some b := by
  obtain ⟨tail, rfl⟩ := List.head?_eq_some_iff.mp hl
  rw [List.flatMap_cons, List.head?_append, hf]
  rfl

/-- The first way through a sequence. -/
theorem First.seq (h : First alnum r at_ e) (h' : First alnum s e e') :
    First alnum (.seq r s) at_ e' :=
  head?_flatMap h h'

/-- A sequence fails where its first part does. -/
theorem Fails.seq (h : Fails alnum r at_) : Fails alnum (.seq r s) at_ := by
  show (r.ends alnum at_).flatMap (s.ends alnum) = []
  rw [h]
  rfl

/-- The only way to match the first part leads nowhere. -/
theorem Fails.seq_right (h : r.ends alnum at_ = [e]) (h' : Fails alnum s e) :
    Fails alnum (.seq r s) at_ := by
  show (r.ends alnum at_).flatMap (s.ends alnum) = []
  rw [h, List.flatMap_cons, List.flatMap_nil, List.append_nil]
  exact h'

/-- Sequences may be bracketed either way. -/
theorem Fails.seq_assoc {t : Re} (h : Fails alnum (.seq r (.seq s t)) at_) :
    Fails alnum (.seq (.seq r s) t) at_ := by
  show ((r.ends alnum at_).flatMap (s.ends alnum)).flatMap (t.ends alnum) = []
  rw [List.flatMap_assoc]
  exact h

/-- The first branch is tried first. -/
theorem First.alt_left (h : First alnum r at_ e) : First alnum (.alt r s) at_ e := by
  show (r.ends alnum at_ ++ s.ends alnum at_).head? = some e
  rw [List.head?_append, h]
  rfl

/-- The second one is tried where the first fails. -/
theorem First.alt_right (hr : Fails alnum r at_) (h : First alnum s at_ e) :
    First alnum (.alt r s) at_ e := by
  show (r.ends alnum at_ ++ s.ends alnum at_).head? = some e
  rw [hr]
  exact h

/-- An alternative fails where both branches do. -/
theorem Fails.alt (hr : Fails alnum r at_) (hs : Fails alnum s at_) :
    Fails alnum (.alt r s) at_ := by
  show r.ends alnum at_ ++ s.ends alnum at_ = []
  rw [hr, hs]
  rfl

/-- An optional pattern is tried first. -/
theorem First.opt (h : First alnum r at_ e) : First alnum (opt r) at_ e := h.alt_left

/-- An optional part that is not there. -/
theorem First.opt_none (h : Fails alnum r at_) : First alnum (Re.opt r) at_ at_ :=
  .alt_right h rfl

/-- An empty list of patterns matches in place. -/
theorem First.all_nil : First alnum (all []) at_ at_ := rfl

/-- The first way through a list of patterns. -/
theorem First.all_cons {rs : List Re} (h : First alnum r at_ e) (h' : First alnum (all rs) e e') :
    First alnum (all (r :: rs)) at_ e' :=
  h.seq h'

/-- A list fails where its first pattern does. -/
theorem Fails.all_cons {rs : List Re} (h : Fails alnum r at_) : Fails alnum (all (r :: rs)) at_ :=
  h.seq

/-- A group keeps the text that it matched. -/
theorem First.group {b' : Option Char} {gs' : List (List Char)}
    (h : First alnum r ⟨b, w ++ rest, gs⟩ ⟨b', rest, gs'⟩) :
    First alnum (.group r) ⟨b, w ++ rest, gs⟩ ⟨b', rest, gs' ++ [w]⟩ := by
  have htext : (w ++ rest).take ((w ++ rest).length - rest.length) = w := by
    rw [List.length_append, Nat.add_sub_cancel, List.take_left]
  show ((r.ends alnum ⟨b, w ++ rest, gs⟩).map _).head? = _
  rw [List.head?_map,
    show (r.ends alnum ⟨b, w ++ rest, gs⟩).head? = some ⟨b', rest, gs'⟩ from h]
  show some (Place.mk b' rest (gs' ++ [_])) = _
  rw [htext]

/-! ### Characters -/

section
variable {p : Char → Bool} {c : Char}

/-- A character that matches is taken, and there is no other way. -/
theorem ends_char (h : p c = true) :
    (Re.char p).ends alnum ⟨b, c :: rest, gs⟩ = [⟨some c, rest, gs⟩] :=
  if_pos h

/-- So taking it is the first way. -/
theorem First.char (h : p c = true) :
    First alnum (.char p) ⟨b, c :: rest, gs⟩ ⟨some c, rest, gs⟩ := by
  rw [First, ends_char h]
  rfl

/-- No character is taken where the next one does not match. -/
theorem Fails.char (h : ∀ c ∈ rest.head?, p c = false) :
    Fails alnum (.char p) ⟨b, rest, gs⟩ := by
  cases rest with
  | nil => rfl
  | cons c rest =>
    show (if p c then _ else []) = []
    rw [h c rfl]
    rfl

/-- The last character of a text, or the one before it. -/
def lastOr (b : Option Char) (w : List Char) : Option Char := w.foldl (fun _ c => some c) b

/-- The last character of a longer text. -/
@[simp] theorem lastOr_append (w' : List Char) :
    lastOr b (w ++ w') = lastOr (lastOr b w) w' :=
  List.foldl_append

/-- A character for each pattern. -/
theorem First.chars {ps : List (Char → Bool)} (h : List.Forall₂ (fun p c => p c = true) ps w) :
    First alnum (all (ps.map Re.char)) ⟨b, w ++ rest, gs⟩ ⟨lastOr b w, rest, gs⟩ := by
  induction h generalizing b with
  | nil => exact .all_nil
  | cons hc _ ih => exact .all_cons (.char hc) ih

/-- Wherever the characters can be taken, what comes next fails. -/
theorem Fails.chars_seq {ps : List (Char → Bool)}
    (h : ∀ w rest', rest = w ++ rest' → List.Forall₂ (fun p c => p c = true) ps w →
      Fails alnum s ⟨lastOr b w, rest', gs⟩) :
    Fails alnum (.seq (all (ps.map Re.char)) s) ⟨b, rest, gs⟩ := by
  induction ps generalizing b rest with
  | nil => exact .seq_right rfl (h [] rest rfl .nil)
  | cons p ps ih =>
    refine Fails.seq_assoc ?_
    cases rest with
    | nil => exact .seq (.char (by simp))
    | cons c rest =>
      by_cases hc : p c = true
      · refine .seq_right (ends_char hc) (ih fun w rest' heq hall => ?_)
        exact h (c :: w) rest' (congrArg (c :: ·) heq) (.cons hc hall)
      · refine .seq (.char fun x hx => ?_)
        obtain rfl : c = x := Option.some.inj hx
        simpa using hc

end

/-- A word ends, or begins, between two characters. -/
theorem First.boundary (h : b.any (isWord alnum) ≠ rest.head?.any (isWord alnum)) :
    First alnum .boundary ⟨b, rest, gs⟩ ⟨b, rest, gs⟩ := by
  show (if _ then [_] else []).head? = _
  rw [if_pos h]
  rfl

/-! ### Repetition -/

/-- There are as many rounds as characters, so more of them make no difference. -/
theorem rounds_eq (f : Place → List Place) {n : Nat} (h : at_.rest.length ≤ n) :
    rounds f n at_ = rounds f at_.rest.length at_ := by
  induction n using Nat.strong_induction_on generalizing at_ with
  | _ n ih =>
    cases n with
    | zero => rw [Nat.le_zero.mp h]
    | succ n =>
      cases hlen : at_.rest.length with
      | zero =>
        show ((f at_).filter fun e => e.rest.length < at_.rest.length).flatMap _ ++ [at_] = [at_]
        rw [hlen, List.filter_eq_nil_iff.mpr (by simp)]
        rfl
      | succ k =>
        show ((f at_).filter _).flatMap _ ++ [at_] = ((f at_).filter _).flatMap _ ++ [at_]
        congr 1
        refine List.flatMap_congr fun e he => ?_
        have hshort : e.rest.length < at_.rest.length := of_decide_eq_true (List.mem_filter.mp he).2
        rw [ih n (by omega) (by omega), ih k (by omega) (by omega)]

/-- A round, and then more of them. -/
theorem First.star_cons (h : First alnum r at_ e) (hlt : e.rest.length < at_.rest.length)
    (h' : First alnum (.star r) e e') : First alnum (.star r) at_ e' := by
  obtain ⟨n, hn⟩ : ∃ n, at_.rest.length = n + 1 := ⟨at_.rest.length - 1, by omega⟩
  show (rounds (r.ends alnum) at_.rest.length at_).head? = some e'
  rw [hn]
  show (((r.ends alnum at_).filter _).flatMap (rounds _ n) ++ [at_]).head? = some e'
  obtain ⟨tail, htail⟩ := List.head?_eq_some_iff.mp h
  rw [htail, List.filter_cons_of_pos (by simpa using hlt), List.flatMap_cons, List.append_assoc,
    List.head?_append, rounds_eq _ (by omega)]
  rw [show (rounds (r.ends alnum) e.rest.length e).head? = some e' from h']
  rfl

/-- No more rounds. -/
theorem First.star_stop (h : Fails alnum r at_) : First alnum (.star r) at_ at_ := by
  show (rounds (r.ends alnum) at_.rest.length at_).head? = some at_
  cases at_.rest.length with
  | zero => rfl
  | succ n =>
    show (((r.ends alnum at_).filter _).flatMap (rounds _ n) ++ [at_]).head? = some at_
    rw [h]
    rfl

section
variable {p : Char → Bool}

/-- Characters of a kind, as many as there are. -/
theorem First.star_char (hw : ∀ c ∈ w, p c = true) (hrest : ∀ c ∈ rest.head?, p c = false) :
    First alnum (.star (.char p)) ⟨b, w ++ rest, gs⟩ ⟨lastOr b w, rest, gs⟩ := by
  induction w generalizing b with
  | nil => exact .star_stop (.char hrest)
  | cons c w ih =>
    refine .star_cons (.char (hw c List.mem_cons_self)) (by simp) ?_
    exact ih fun c' hc' => hw c' (List.mem_cons_of_mem _ hc')

/-- A greedy repetition takes as much as matches. -/
theorem First.plus_char (hne : w ≠ []) (hw : ∀ c ∈ w, p c = true)
    (hrest : ∀ c ∈ rest.head?, p c = false) :
    First alnum (plus (.char p)) ⟨b, w ++ rest, gs⟩ ⟨lastOr b w, rest, gs⟩ := by
  cases w with
  | nil => exact absurd rfl hne
  | cons c w =>
    refine First.seq (.char (hw c List.mem_cons_self)) (.star_char (fun c' hc' => ?_) hrest)
    exact hw c' (List.mem_cons_of_mem _ hc')

/-- White space, all of it. -/
theorem First.spaces (hne : w ≠ []) (hw : ∀ c ∈ w, isSpace c = true)
    (hrest : ∀ c ∈ rest.head?, isSpace c = false) :
    First alnum spaces ⟨b, w ++ rest, gs⟩ ⟨lastOr b w, rest, gs⟩ :=
  .plus_char hne hw hrest

end

/-! ### Words -/

/-- A word is its characters in turn. -/
theorem text_eq (word : String) :
    text word = all ((word.toList.map fun c x => decide (x = c)).map Re.char) := by
  rw [text, List.map_map]
  rfl

/-- The same where case is ignored. -/
theorem textIgnoreCase_eq (word : String) :
    textIgnoreCase word = all ((word.toList.map sameLetter).map Re.char) := by
  rw [textIgnoreCase, List.map_map]
  rfl

/-- A word that is there. -/
theorem First.text (word : String) :
    First alnum (Re.text word) ⟨b, word.toList ++ rest, gs⟩
      ⟨lastOr b word.toList, rest, gs⟩ := by
  rw [text_eq]
  refine .chars ?_
  rw [List.forall₂_map_left_iff, List.forall₂_same]
  exact fun c _ => decide_eq_true rfl

/-- A word in any case. -/
theorem First.textIgnoreCase {word : String} (h : w.map Char.toLower = word.toList) :
    First alnum (Re.textIgnoreCase word) ⟨b, w ++ rest, gs⟩ ⟨lastOr b w, rest, gs⟩ := by
  rw [textIgnoreCase_eq]
  refine .chars ?_
  rw [List.forall₂_map_left_iff, ← h, List.forall₂_map_left_iff, List.forall₂_same]
  intro c _
  simp [sameLetter]

/-- Only the letters i, k and s have another form in `(?i)`. -/
theorem toLower_of_sameLetter {word : List Char}
    (hword : word.all (fun c => c ∉ ['i', 'k', 's']) = true)
    (h : List.Forall₂ (fun c x => sameLetter c x = true) word w) : w.map Char.toLower = word := by
  induction h with
  | nil => rfl
  | @cons c x word w hc _ ih =>
    rw [List.all_cons, Bool.and_eq_true, decide_eq_true_eq] at hword
    obtain ⟨hplain, hrest⟩ := hword
    simp only [List.mem_cons, List.not_mem_nil, or_false, not_or] at hplain
    obtain ⟨hi, hk, hs⟩ := hplain
    have hx : x.toLower = c := by simpa [sameLetter, hi, hk, hs] using hc
    rw [List.map_cons, hx, ih hrest]

/-- A word whose first character is not there. -/
theorem Fails.text {c : Char} {word : String} (h : word.toList.head? ≠ some c)
    (hne : word.toList ≠ []) : Fails alnum (Re.text word) ⟨b, c :: rest, gs⟩ := by
  rw [text_eq]
  cases hword : word.toList with
  | nil => exact absurd hword hne
  | cons a tail =>
    rw [hword] at h
    refine .all_cons (.char fun x hx => ?_)
    obtain rfl : c = x := Option.some.inj hx
    exact decide_eq_false fun heq => h (congrArg some heq.symm)

end Re

end Py

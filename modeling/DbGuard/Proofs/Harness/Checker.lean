import DbGuard.Harness.Checker
import Mathlib.Tactic.Linarith

/-!
# `DbGuard.Proofs.Harness.Checker`: what a verdict is worth

The checker reads a fleet that moves. Replicas apply, the manager repoints, and no two reads
are of one instant. So a verdict is about the instants of its reads, and `check_sound` says
which: a passing run has seen each of the four properties, in this order, and the rows last.

`convergence` is the loop. `convergence_decides` says when it returns and what: its answer is
yes exactly if some round saw one set on all nodes, and no round before it ended after the
timeout. The rounds have one length (`ends_compareSets`), so the instants of a round are known
from its number.

On a fleet that stands still the four properties are those of one state, and `check_still`
says that the verdict is exact.
-/

set_option autoImplicit false

namespace DbGuard.Harness

open Watch (Ends Rounds ask)

/-! ### A round -/

section
variable (h : Nat → Shown) (primary : Node) (replicas : List Node)

/-- Every read of a round that begins at instant `k` is answered with a GTID set. -/
structure Answered (k : Nat) : Prop where
  primary : ∃ s, (h k).gtids primary = .ok s
  replicas : ∀ n r, replicas[n]? = some r → ∃ g, (h (k + 1 + n)).gtids r = .ok g

/-- The round that begins at instant `k` sees one set on all nodes. -/
def Agreed (k : Nat) : Prop :=
  ∃ s, (h k).gtids primary = .ok s ∧
    ∀ n r, replicas[n]? = some r → (h (k + 1 + n)).gtids r = .ok s

/-- Where round `m` begins, if the rounds begin at instant `i`. -/
def roundAt (i m : Nat) : Nat := i + m * (replicas.length + 2)

/-- The clock at the end of the round that begins at instant `k`. -/
def endOf (k : Nat) : ℚ := (h (k + 1 + replicas.length)).clock

end

section
variable {h : Nat → Shown} {primary : Node} {replicas : List Node} {timeout t0 : ℚ}
  {i j k m n : Nat} {c : Convergence} {out : Unit ⊕ Convergence}

/-- Nodes that agree have answered. -/
theorem Agreed.answered (hagree : Agreed h primary replicas k) : Answered h primary replicas k := by
  obtain ⟨s, hs, hall⟩ := hagree
  exact ⟨⟨s, hs⟩, fun n r hr => ⟨s, hall n r hr⟩⟩

/-- A round takes one instant for each node and one for the clock. -/
theorem ends_compareSets : Ends h k (compareSets primary replicas timeout t0) out j ↔
    ∃ s gs, (h k).gtids primary = .ok s ∧ gs.length = replicas.length ∧
      (∀ n r, replicas[n]? = some r → ∃ g, gs[n]? = some g ∧ (h (k + 1 + n)).gtids r = .ok g) ∧
      out = conclude timeout (endOf h replicas k - t0) s (replicas.zip gs) ∧
      j = k + (replicas.length + 2) := by
  simp only [compareSets, Watch.ends_bind, Watch.ends_ask, Watch.ends_askAll, Watch.ends_pure]
  constructor
  · rintro ⟨s, _, ⟨hs, rfl⟩, gs, _, ⟨rfl, hlen, hall⟩, now, _, ⟨hnow, rfl⟩, rfl, rfl⟩
    cases hnow
    exact ⟨s, gs, hs, hlen, hall, rfl, by omega⟩
  · rintro ⟨s, gs, hs, hlen, hall, rfl, rfl⟩
    exact ⟨s, k + 1, ⟨hs, rfl⟩, gs, _, ⟨rfl, hlen, hall⟩, _, _, ⟨rfl, rfl⟩, rfl, by omega⟩

/-- What is returned if all sets are the primary's. -/
theorem conclude_same (timeout elapsed : ℚ) {s : GtidSet} {gtids : List (Node × GtidSet)}
    (hsame : ∀ x ∈ gtids, x.2 = s) :
    ∃ c, conclude timeout elapsed s gtids = .inr c ∧ c.ok = true := by
  have hnone : gtids.filter (·.2 ≠ s) = [] :=
    List.filter_eq_nil_iff.mpr fun x hx => by simpa using hsame x hx
  exact ⟨_, if_pos hnone, rfl⟩

/-- And if not all are, by the time that has passed. -/
theorem conclude_differ (timeout elapsed : ℚ) {s : GtidSet} {gtids : List (Node × GtidSet)}
    (hdiffer : ¬∀ x ∈ gtids, x.2 = s) :
    (elapsed < timeout → conclude timeout elapsed s gtids = .inl ()) ∧
    (timeout ≤ elapsed → ∃ c, conclude timeout elapsed s gtids = .inr c ∧ c.ok = false ∧
      c.missingOnReplica = (gtids.filter (·.2 ≠ s)).map fun x => (x.1, (s \ x.2).toText)) := by
  have hsome : ¬gtids.filter (·.2 ≠ s) = [] := fun hnone =>
    hdiffer fun x hx => by simpa using List.filter_eq_nil_iff.mp hnone x hx
  constructor
  · intro hlt
    exact (if_neg hsome).trans (if_neg (not_le.mpr hlt))
  · intro hle
    exact ⟨_, (if_neg hsome).trans (if_pos hle), rfl, rfl⟩

/-- The sets of a round are all the primary's exactly if the round has agreed. -/
theorem agreed_iff {s : GtidSet} {gs : List GtidSet} (hs : (h k).gtids primary = .ok s)
    (hlen : gs.length = replicas.length) (hgs : ∀ n r, replicas[n]? = some r →
      ∃ g, gs[n]? = some g ∧ (h (k + 1 + n)).gtids r = .ok g) :
    Agreed h primary replicas k ↔ ∀ x ∈ replicas.zip gs, x.2 = s := by
  constructor
  · rintro ⟨s', hs', hall⟩ x hx
    cases hs.symm.trans hs'
    obtain ⟨n, hn, rfl⟩ := List.mem_iff_getElem.mp hx
    have hr : n < replicas.length := by
      rw [List.length_zip] at hn
      omega
    obtain ⟨g, hg, hread⟩ := hgs n _ (List.getElem?_eq_getElem hr)
    have hsame := hall n _ (List.getElem?_eq_getElem hr)
    cases hread.symm.trans hsame
    rw [List.getElem_zip]
    exact (List.getElem?_eq_some_iff.mp hg).2
  · intro hall
    refine ⟨s, hs, fun n r hr => ?_⟩
    obtain ⟨g, hg, hread⟩ := hgs n r hr
    have hmem : (r, g) ∈ replicas.zip gs :=
      List.mem_of_getElem? (List.getElem?_zip_eq_some.mpr ⟨hr, hg⟩)
    exact hread.trans (congrArg Except.ok (hall _ hmem))

/-- The sets that the replicas show, in the order of the replicas. -/
theorem exists_sets : ∀ (rs : List Node) (a : Nat),
    (∀ n r, rs[n]? = some r → ∃ g, (h (a + n)).gtids r = .ok g) →
    ∃ gs : List GtidSet, gs.length = rs.length ∧
      ∀ n r, rs[n]? = some r → ∃ g, gs[n]? = some g ∧ (h (a + n)).gtids r = .ok g := by
  intro rs
  induction rs with
  | nil =>
      intro a _
      exact ⟨[], rfl, by simp⟩
  | cons r rs ih =>
      intro a hrs
      have hshift : ∀ n, a + (n + 1) = a + 1 + n := by omega
      obtain ⟨g, hg⟩ := hrs 0 r rfl
      obtain ⟨gs, hlen, hgs⟩ := ih (a + 1) fun n r' hr' => hshift n ▸ hrs (n + 1) r' hr'
      refine ⟨g :: gs, by simp [hlen], fun n r' hr' => ?_⟩
      cases n with
      | zero =>
          cases hr'
          exact ⟨g, rfl, hg⟩
      | succ n => exact hshift n ▸ hgs n r' hr'

/-- The loop ends with the answer yes in the first round that sees one set on all nodes. -/
theorem ends_of_agreed (hagree : Agreed h primary replicas k) : ∃ c, c.ok = true ∧
    Ends h k (compareSets primary replicas timeout t0) (.inr c) (k + (replicas.length + 2)) := by
  obtain ⟨s, hs, hall⟩ := hagree
  obtain ⟨gs, hlen, hgs⟩ := exists_sets replicas (k + 1) fun n r hr => ⟨s, hall n r hr⟩
  obtain ⟨c, hc, hok⟩ :=
    conclude_same timeout (endOf h replicas k - t0) ((agreed_iff hs hlen hgs).mp ⟨s, hs, hall⟩)
  exact ⟨c, hok, ends_compareSets.mpr ⟨s, gs, hs, hlen, hgs, hc.symm, rfl⟩⟩

/-- And only then. -/
theorem agreed_of_ok (hends : Ends h k (compareSets primary replicas timeout t0) (.inr c) j)
    (hok : c.ok = true) : Agreed h primary replicas k := by
  obtain ⟨s, gs, hs, hlen, hgs, hout, -⟩ := ends_compareSets.mp hends
  refine (agreed_iff hs hlen hgs).mpr (by_contra fun hdiffer => ?_)
  obtain ⟨hearly, hlate⟩ :=
    conclude_differ timeout (endOf h replicas k - t0) hdiffer
  rcases lt_or_ge (endOf h replicas k - t0) timeout with hlt | hle
  · rw [hearly hlt] at hout
    cases hout
  · obtain ⟨c', hc, hno, -⟩ := hlate hle
    cases hout.trans hc
    rw [hok] at hno
    cases hno

/-- An answered round that sees two sets ends the loop after the timeout, and the answer is
no. Before the timeout it is followed by another one. -/
theorem ends_of_answered (t0 : ℚ) (hanswered : Answered h primary replicas k)
    (hagree : ¬Agreed h primary replicas k) :
    (endOf h replicas k - t0 < timeout →
      Ends h k (compareSets primary replicas timeout t0) (.inl ()) (k + (replicas.length + 2))) ∧
    (timeout ≤ endOf h replicas k - t0 → ∃ c, c.ok = false ∧
      Ends h k (compareSets primary replicas timeout t0) (.inr c)
        (k + (replicas.length + 2))) := by
  obtain ⟨⟨s, hs⟩, hall⟩ := hanswered
  obtain ⟨gs, hlen, hgs⟩ := exists_sets replicas (k + 1) hall
  obtain ⟨hearly, hlate⟩ :=
    conclude_differ timeout (endOf h replicas k - t0) (mt (agreed_iff hs hlen hgs).mpr hagree)
  constructor
  · intro hlt
    exact ends_compareSets.mpr ⟨s, gs, hs, hlen, hgs, (hearly hlt).symm, rfl⟩
  · intro hle
    obtain ⟨c, hc, hno, -⟩ := hlate hle
    exact ⟨c, hno, ends_compareSets.mpr ⟨s, gs, hs, hlen, hgs, hc.symm, rfl⟩⟩

/-! ### The loop -/

/-- `m` rounds have passed without a result. -/
theorem rounds_of_answered (t0 : ℚ) :
    (∀ n < m, Answered h primary replicas (roundAt replicas i n) ∧
      ¬Agreed h primary replicas (roundAt replicas i n) ∧
      endOf h replicas (roundAt replicas i n) - t0 < timeout) →
    Rounds h (fun _ => compareSets primary replicas timeout t0) i () m
      (roundAt replicas i m) () := by
  induction m with
  | zero => exact fun _ => by simp [Rounds, roundAt]
  | succ m ih =>
      intro hall
      obtain ⟨hanswered, hagree, htime⟩ := hall m (Nat.lt_succ_self m)
      have hlast := (ends_of_answered t0 hanswered hagree).1 htime
      have hend : roundAt replicas i m + (replicas.length + 2) = roundAt replicas i (m + 1) := by
        simp only [roundAt, Nat.succ_mul, Nat.add_assoc]
      rw [hend] at hlast
      exact Watch.rounds_succ m i _ () (ih fun n hn => hall n (by omega)) hlast

/-- If every read is answered and the clock reaches the timeout, `convergence` returns. It
says yes exactly if there is a round that sees one set on all nodes, and all rounds before it
end before the timeout. -/
theorem convergence_decides (primary : Node) (replicas : List Node) (timeout : ℚ)
    (h : Nat → Shown) (i : Nat)
    (hanswered : ∀ m, Answered h primary replicas (roundAt replicas (i + 1) m))
    (hclock : ∃ m, timeout ≤ endOf h replicas (roundAt replicas (i + 1) m) - (h i).clock) :
    ∃ c, (∃ rounds j, Ends h i (convergence primary replicas timeout rounds) (some c) j) ∧
      (c.ok = true ↔ ∃ m, Agreed h primary replicas (roundAt replicas (i + 1) m) ∧
        ∀ n < m, endOf h replicas (roundAt replicas (i + 1) n) - (h i).clock < timeout) := by
  classical
  -- The last round is the first one that agrees or ends after the timeout.
  have hstop : ∃ m, Agreed h primary replicas (roundAt replicas (i + 1) m) ∨
      timeout ≤ endOf h replicas (roundAt replicas (i + 1) m) - (h i).clock :=
    hclock.imp fun m => .inr
  have hbefore : ∀ n < Nat.find hstop, ¬Agreed h primary replicas (roundAt replicas (i + 1) n) ∧
      endOf h replicas (roundAt replicas (i + 1) n) - (h i).clock < timeout := fun n hn =>
    ⟨fun ha => Nat.find_min hstop hn (.inl ha),
      not_le.mp fun ht => Nat.find_min hstop hn (.inr ht)⟩
  have hrounds := rounds_of_answered (h i).clock fun n hn =>
    ⟨hanswered n, hbefore n hn⟩
  have hends : ∀ {c j}, Ends h (roundAt replicas (i + 1) (Nat.find hstop))
      (compareSets primary replicas timeout (h i).clock) (.inr c) j →
      ∃ rounds j, Ends h i (convergence primary replicas timeout rounds) (some c) j := by
    intro c j hlast
    refine ⟨Nat.find hstop + 1, j, ?_⟩
    simp only [convergence, Watch.ends_bind, Watch.ends_ask]
    refine ⟨_, _, ⟨rfl, rfl⟩, (Watch.ends_loop _ _ _).mpr ?_⟩
    exact ⟨_, _, (), Nat.lt_succ_self _, hrounds, hlast⟩
  by_cases hagree : Agreed h primary replicas (roundAt replicas (i + 1) (Nat.find hstop))
  · obtain ⟨c, hok, hlast⟩ := ends_of_agreed hagree
    refine ⟨c, hends hlast, iff_of_true hok ⟨_, hagree, fun n hn => (hbefore n hn).2⟩⟩
  · have hlate := (Nat.find_spec hstop).resolve_left hagree
    obtain ⟨c, hno, hlast⟩ := (ends_of_answered _ (hanswered _) hagree).2 hlate
    refine ⟨c, hends hlast, iff_of_false (by simp [hno]) ?_⟩
    rintro ⟨m, hm, htime⟩
    -- A round that agrees is not before the last one, and not after it either.
    rcases Nat.lt_trichotomy m (Nat.find hstop) with hlt | heq | hgt
    · exact (hbefore m hlt).1 hm
    · exact hagree (heq ▸ hm)
    · exact absurd hlate (not_le.mpr (htime _ hgt))

end

/-- `a` is the primary. Until instant 8 the replica `b` lacks two transactions. -/
def catchingUp (k : Nat) : Shown where
  readOnly n := .ok (n ≠ "a", n ≠ "a")
  probeInsert n := .ok (if n = "a" then none else some "super_read_only")
  gtidExecuted n := .ok (if n = "b" ∧ k < 8 then "3e11fa47-71ca-11e1-9e33-c80aa9429562:1-3"
    else "3e11fa47-71ca-11e1-9e33-c80aa9429562:1-5")
  rows _ := .ok {(1, 1)}
  clock := k

/-- A replica that catches up lets the check converge. -/
theorem convergence_decides_catchingUp :
    ∃ c, (∃ rounds j, Ends catchingUp 0 (convergence "a" ["b"] 60 rounds) (some c) j) ∧
      c.ok = true := by
  have hset : ∀ n k, ∃ s, (catchingUp k).gtids n = .ok s := fun n k => by
    simp only [Shown.gtids, catchingUp]
    split
    · exact ⟨_, rfl⟩
    · exact ⟨_, rfl⟩
  obtain ⟨c, hends, hok⟩ := convergence_decides "a" ["b"] 60 catchingUp 0
    (fun m => ⟨hset _ _, fun n r _ => hset _ _⟩) ⟨20, by decide +kernel⟩
  refine ⟨c, hends, hok.mpr ⟨2, ⟨_, rfl, fun n r hr => ?_⟩, by decide +kernel⟩⟩
  match n, hr with
  | 0, rfl => rfl

/-! ### The nodes -/

/-- `n` shows itself writable. -/
def Shown.Writable (n : Node) (w : Shown) : Prop := w.readOnly n = .ok (false, false)

/-- `n` shows itself read-only. -/
def Shown.ReadOnly (n : Node) (w : Shown) : Prop :=
  ∃ flags, w.readOnly n = .ok flags ∧ (flags.1 || flags.2) = true

/-- `n` rejects a write. -/
def Shown.Rejects (n : Node) (w : Shown) : Prop := ∃ e, w.probeInsert n = .ok (some e)

section
variable {h : Nat → Shown} {i j : Nat} {ns unreachable : List Node} {n p : Node}
  {out : List Node × List (Node × Bool)} {sw : SingleWriter}

/-- The loop over the nodes puts each node on one of its lists. -/
theorem ends_probeNodes : ∀ (ns : List Node) (i : Nat) (out : List Node × List (Node × Bool)),
    Ends h i (probeNodes ns) out j → i ≤ j ∧
      (∀ n ∈ out.1, n ∈ ns ∧ ∃ a, i ≤ a ∧ a < j ∧ (h a).Writable n) ∧
      ∀ n ∈ ns, n ∈ out.1 ∨ ∃ a, i ≤ a ∧ a + 1 < j ∧ (h a).ReadOnly n ∧
        ∃ err, (h (a + 1)).probeInsert n = .ok err ∧ (n, err.isNone) ∈ out.2 := by
  intro ns
  -- The induction goes over the nodes; each takes one read, and an insert where it is read-only.
  induction ns with
  | nil =>
      rintro i out ⟨rfl, rfl⟩
      exact ⟨Nat.le_refl _, by simp, by simp⟩
  | cons m ns ih =>
      intro i out hends
      simp only [probeNodes, Watch.ends_bind, Watch.ends_ask] at hends
      obtain ⟨flags, _, ⟨hflags, rfl⟩, hends⟩ := hends
      -- A writable node is listed.
      split at hends
      · rename_i hwritable
        simp only [Watch.ends_bind, Watch.ends_pure] at hends
        obtain ⟨rest, _, hrest, rfl, rfl⟩ := hends
        obtain ⟨hle, hlisted, hall⟩ := ih (i + 1) rest hrest
        have hm : (h i).Writable m := by
          obtain ⟨s, r⟩ := flags
          simp only [Bool.and_eq_true, Bool.not_eq_true'] at hwritable
          rw [Shown.Writable, hflags, hwritable.1, hwritable.2]
        refine ⟨by omega, fun n hn => ?_, fun n hn => ?_⟩
        · rcases List.mem_cons.mp hn with rfl | hn
          · exact ⟨List.mem_cons_self, i, Nat.le_refl i, by omega, hm⟩
          · obtain ⟨hmem, a, hia, haj, hw⟩ := hlisted n hn
            exact ⟨List.mem_cons_of_mem _ hmem, a, by omega, haj, hw⟩
        · rcases List.mem_cons.mp hn with rfl | hn
          · exact .inl List.mem_cons_self
          · rcases hall n hn with hw | ⟨a, hia, haj, hread⟩
            · exact .inl (List.mem_cons_of_mem _ hw)
            · exact .inr ⟨a, by omega, haj, hread⟩
      -- A read-only one gets an insert, and its answer is the probe.
      · rename_i hwritable
        simp only [Watch.ends_bind, Watch.ends_ask, Watch.ends_pure] at hends
        obtain ⟨err, _, ⟨herr, rfl⟩, rest, _, hrest, rfl, rfl⟩ := hends
        obtain ⟨hle, hlisted, hall⟩ := ih (i + 1 + 1) rest hrest
        have hm : (h i).ReadOnly m := by
          refine ⟨flags, hflags, ?_⟩
          obtain ⟨s, r⟩ := flags
          cases s <;> cases r <;> simp_all
        refine ⟨by omega, fun n hn => ?_, fun n hn => ?_⟩
        · obtain ⟨hmem, a, hia, haj, hw⟩ := hlisted n hn
          exact ⟨List.mem_cons_of_mem _ hmem, a, by omega, haj, hw⟩
        · rcases List.mem_cons.mp hn with rfl | hn
          · exact .inr ⟨i, Nat.le_refl i, by omega, hm, err, herr, List.mem_cons_self⟩
          · rcases hall n hn with hw | ⟨a, hia, haj, hread, err', herr', hmem⟩
            · exact .inl hw
            · exact .inr ⟨a, by omega, haj, hread, err', herr', List.mem_cons_of_mem _ hmem⟩

/-- `single_writer` says yes only if it has seen one node writable, and has seen every other one
read-only and reject a write. -/
theorem ends_singleWriter (hends : Ends h i (singleWriter ns unreachable) sw j)
    (hok : sw.ok = true) : i ≤ j ∧ ∃ p, sw.writable = [p] ∧ p ∈ ns ∧
      (∃ a, i ≤ a ∧ a < j ∧ (h a).Writable p) ∧
      ∀ n ∈ ns, n ≠ p → ∃ a, i ≤ a ∧ a + 1 < j ∧ (h a).ReadOnly n ∧ (h (a + 1)).Rejects n := by
  simp only [singleWriter, Watch.ends_bind, Watch.ends_pure] at hends
  obtain ⟨out, _, hprobes, rfl, rfl⟩ := hends
  obtain ⟨hle, hlisted, hall⟩ := ends_probeNodes ns i out hprobes
  simp only [Bool.and_eq_true, decide_eq_true_eq] at hok
  obtain ⟨hone, hnone⟩ := hok
  obtain ⟨p, hp⟩ := List.length_eq_one_iff.mp hone
  have hpw : p ∈ out.1 := by simp [hp]
  refine ⟨hle, p, hp, (hlisted p hpw).1, (hlisted p hpw).2, fun n hn hne => ?_⟩
  rcases hall n hn with hw | ⟨a, hia, haj, hread, err, herr, hmem⟩
  · rw [hp, List.mem_singleton] at hw
    exact absurd hw hne
  · refine ⟨a, hia, haj, hread, ?_⟩
    have hrejected : (out.2.filter (·.2)).length = 0 := by omega
    have hno := List.filter_eq_nil_iff.mp (List.length_eq_zero_iff.mp hrejected) _ hmem
    cases err with
    | none => simp at hno
    | some e => exact ⟨e, herr⟩

end

/-! ### The verdict -/

section
variable {h : Nat → Shown} {i j k : Nat} {nodes unreachable replicas : List Node} {p : Node}
  {acks : AckSets} {timeout : ℚ} {rounds : Nat} {v : Verdict} {c : Convergence} {w : Shown}

/-- A positive answer of `convergence` is about one of its rounds. -/
theorem agreed_of_convergence
    (hends : Ends h i (convergence p replicas timeout rounds) (some c) j) (hok : c.ok = true) :
    ∃ k, i < k ∧ j = k + (replicas.length + 2) ∧ Agreed h p replicas k := by
  simp only [convergence, Watch.ends_bind, Watch.ends_ask] at hends
  obtain ⟨t0, _, ⟨-, rfl⟩, hpoll⟩ := hends
  obtain ⟨n, k, _, -, hrounds, hlast⟩ := (Watch.ends_loop _ _ _).mp hpoll
  have hle := Watch.le_of_rounds n _ _ hrounds
  obtain ⟨_, _, -, -, -, -, hj⟩ := ends_compareSets.mp hlast
  exact ⟨k, hle, hj, agreed_of_ok hlast hok⟩

/-- The rows that a positive verdict allows. -/
def AckSets.Fit (acks : AckSets) (rows : Finset (Nat × Nat)) : Prop :=
  acks.acked ⊆ rows ∧ rows ⊆ acks.acked ∪ acks.errored

/-- The rows fit exactly if none is lost and none is a phantom. -/
theorem fit_iff {rows : Finset (Nat × Nat)} : acks.Fit rows ↔
    (losslessAndPhantom acks rows).lost = ∅ ∧ (losslessAndPhantom acks rows).phantom = ∅ := by
  show _ ↔ acks.acked \ rows = ∅ ∧ (rows \ acks.acked) \ acks.errored = ∅
  rw [Finset.sdiff_eq_empty_iff_subset, Finset.sdiff_eq_empty_iff_subset]
  exact and_congr_right' sdiff_le_iff.symm

/-- The three parts of a positive verdict. -/
theorem ends_check_pass :
    (∃ v, Ends h i (check acks nodes unreachable timeout rounds) (some v) j ∧ v.pass = true) ↔
      ∃ sw k p c l rows, Ends h i (singleWriter nodes unreachable) sw k ∧ sw.ok = true ∧
        sw.writable = [p] ∧
        Ends h k (convergence p (nodes.filter (· ≠ p)) timeout rounds) (some c) l ∧
        c.ok = true ∧ (h l).rows p = .ok rows ∧ acks.Fit rows ∧ j = l + 1 := by
  simp only [check, Watch.ends_bind]
  constructor
  -- A pass needs a single primary, its convergence and the rows, in this order.
  · rintro ⟨v, ⟨sw, k, hsw, hrest⟩, hpass⟩
    split at hrest
    · -- without a single primary the verdict has no part about the rows
      obtain ⟨heq, -⟩ := hrest
      cases heq
      simp [Verdict.pass] at hpass
    · rename_i p hone
      have hp : sw.writable = [p] := by
        unfold onlyOne at hone
        split at hone
        · rename_i heq
          cases hone
          exact heq
        · cases hone
      simp only [Watch.ends_bind] at hrest
      obtain ⟨conv, l, hconv, hrest⟩ := hrest
      cases conv with
      | none => exact absurd hrest.1 (by simp)
      | some c =>
          simp only [Watch.ends_bind, Watch.ends_ask, Watch.ends_pure] at hrest
          obtain ⟨rows, _, ⟨hrows, rfl⟩, heq, rfl⟩ := hrest
          cases heq
          simp only [Verdict.pass, Option.any_some, Bool.and_eq_true, decide_eq_true_eq] at hpass
          obtain ⟨⟨hok, hcok⟩, hlost⟩ := hpass
          exact ⟨sw, k, p, c, l, rows, hsw, hok, hp, hconv, hcok, hrows, fit_iff.mpr hlost, rfl⟩
  -- And these three reads are all that it needs.
  · rintro ⟨sw, k, p, c, l, rows, hsw, hok, hp, hconv, hcok, hrows, hfit, rfl⟩
    refine ⟨{ nodes := nodes ++ unreachable.mergeSort (· ≤ ·), acked := acks.acked.card,
              errored := acks.errored.card, singleWriter := sw, primary := some p,
              convergence := some c, rows := some rows.card,
              loss := some (losslessAndPhantom acks rows) }, ⟨sw, k, hsw, ?_⟩, ?_⟩
    · rw [hp]
      simp only [onlyOne, Watch.ends_bind]
      refine ⟨some c, l, hconv, ?_⟩
      simp only [Watch.ends_bind, Watch.ends_ask]
      exact ⟨rows, _, ⟨hrows, rfl⟩, rfl, rfl⟩
    · simp only [Verdict.pass, Option.any_some, Bool.and_eq_true, decide_eq_true_eq]
      exact ⟨⟨hok, hcok⟩, fit_iff.mp hfit⟩

/-- A run that passes has seen, in this order: one node writable and every other one read-only
and rejecting a write; then one GTID set on the primary and, after it, on every other node; then
every acknowledged write on the primary, and no row that was neither acknowledged nor had an
error. All this however the fleet changes between the reads. -/
theorem check_sound (hends : Ends h i (check acks nodes unreachable timeout rounds) (some v) j)
    (hpass : v.pass = true) : ∃ p k l, p ∈ nodes ∧ k < l ∧ j = l + 1 ∧
      (∃ a, i ≤ a ∧ a < k ∧ (h a).Writable p) ∧
      (∀ n ∈ nodes, n ≠ p → ∃ a, i ≤ a ∧ a + 1 < k ∧ (h a).ReadOnly n ∧ (h (a + 1)).Rejects n) ∧
      (∃ s, (h k).gtids p = .ok s ∧
        ∀ n ∈ nodes, n ≠ p → ∃ b, k < b ∧ b < l ∧ (h b).gtids n = .ok s) ∧
      ∃ rows, (h l).rows p = .ok rows ∧ acks.Fit rows := by
  obtain ⟨sw, k, p, c, l, rows, hsw, hok, hp, hconv, hcok, hrows, hfit, rfl⟩ :=
    ends_check_pass.mp ⟨v, hends, hpass⟩
  obtain ⟨-, p', hp', hmem, ⟨a, hia, hak, hw⟩, hothers⟩ := ends_singleWriter hsw hok
  cases hp.symm.trans hp'
  obtain ⟨m, hkm, rfl, s, hs, hall⟩ := agreed_of_convergence hconv hcok
  refine ⟨p, m, _, hmem, by omega, rfl, ⟨a, hia, by omega, hw⟩, fun n hn hne => ?_,
    ⟨s, hs, fun n hn hne => ?_⟩, rows, hrows, hfit⟩
  · obtain ⟨b, hib, hbk, hread⟩ := hothers n hn hne
    exact ⟨b, hib, by omega, hread⟩
  · have hreplica : n ∈ nodes.filter (· ≠ p) := List.mem_filter.mpr ⟨hn, by simpa using hne⟩
    obtain ⟨x, hx, rfl⟩ := List.mem_iff_getElem.mp hreplica
    exact ⟨m + 1 + x, by omega, by omega, hall x _ (List.getElem?_eq_getElem hx)⟩

/-- The check of such a set is sound. -/
theorem check_sound_catchingUp : ∃ p k, p ∈ ["a", "b"] ∧
    ∃ s, (catchingUp k).gtids p = .ok s ∧
      ∀ n ∈ ["a", "b"], n ≠ p → ∃ b, k < b ∧ (catchingUp b).gtids n = .ok s := by
  obtain ⟨out, j, hends, hany⟩ := Watch.exists_ends_of_run (q := fun out => out.any (·.pass))
    (i := 0) (h := catchingUp) (p := check ⟨{(1, 1)}, ∅⟩ ["a", "b"] [] 60 5) (by decide +kernel)
  obtain ⟨v, rfl, hpass⟩ := (Option.any_eq_true _ _).mp hany
  obtain ⟨p, k, l, hp, -, -, -, -, ⟨s, hs, hall⟩, -⟩ := check_sound hends hpass
  refine ⟨p, k, hp, s, hs, fun n hn hne => ?_⟩
  obtain ⟨b, hkb, -, hb⟩ := hall n hn hne
  exact ⟨b, hkb, hb⟩

/-! ### On a fleet that stands still -/

/-- The four properties of one state. -/
structure Intact (acks : AckSets) (nodes : List Node) (p : Node) (w : Shown) : Prop where
  once : nodes.count p = 1
  writable : w.Writable p
  others : ∀ n ∈ nodes, n ≠ p → w.ReadOnly n ∧ w.Rejects n
  converged : ∃ s, w.gtids p = .ok s ∧ ∀ n ∈ nodes, n ≠ p → w.gtids n = .ok s
  fit : ∃ rows, w.rows p = .ok rows ∧ acks.Fit rows

/-- Where only `p` is writable, the loop over the nodes counts it. -/
theorem eval_probeNodes (hwritable : w.Writable p) : ∀ ns : List Node,
    (∀ n ∈ ns, n ≠ p → w.ReadOnly n ∧ w.Rejects n) →
    ∃ probes, (probeNodes ns).eval w = .ok (List.replicate (ns.count p) p, probes) ∧
      probes.filter (·.2) = [] := by
  -- By induction on the nodes that are probed.
  intro ns
  induction ns with
  | nil => exact fun _ => ⟨[], rfl, rfl⟩
  | cons n ns ih =>
      intro hothers
      obtain ⟨probes, hrest, hnone⟩ := ih fun m hm => hothers m (List.mem_cons_of_mem _ hm)
      simp only [probeNodes, Watch.eval_bind, Watch.eval_ask]
      -- The primary is writable, and it is counted.
      by_cases hn : n = p
      · subst hn
        rw [hwritable]
        refine ⟨probes, ?_, hnone⟩
        show (probeNodes ns >>= fun rest => pure (n :: rest.1, rest.2)).eval w = _
        rw [Watch.eval_bind, hrest, List.count_cons_self]
        rfl
      -- Any other node is read-only, and so it is tried with an insert, which it rejects.
      · obtain ⟨⟨flags, hflags, hset⟩, e, he⟩ := hothers n List.mem_cons_self hn
        refine ⟨(n, false) :: probes, ?_, by simpa using hnone⟩
        have hro : (!flags.1 && !flags.2) = false := by
          obtain ⟨s, r⟩ := flags
          cases s <;> cases r <;> simp_all
        rw [hflags]
        show (if (!flags.1 && !flags.2) = true then _ else _ : Checking _).eval w = _
        rw [hro]
        show (ask (·.probeInsert n) >>= fun err => probeNodes ns >>= fun rest =>
          pure (rest.1, (n, err.isNone) :: rest.2)).eval w = _
        rw [Watch.eval_bind, Watch.eval_ask, he]
        show (probeNodes ns >>= fun rest => pure (rest.1, (n, false) :: rest.2)).eval w = _
        rw [Watch.eval_bind, hrest, List.count_cons_of_ne hn]
        rfl

/-- On a fleet that stands still the verdict is exact: the run passes if and only if some node
makes the fleet intact. -/
theorem check_still (acks : AckSets) (nodes unreachable : List Node) (timeout : ℚ)
    (h : Nat → Shown) (i : Nat) (w : Shown) (hstill : ∀ k, i ≤ k → h k = w) :
    (∃ rounds v j, Ends h i (check acks nodes unreachable timeout rounds) (some v) j ∧
      v.pass = true) ↔ ∃ p, Intact acks nodes p w := by
  constructor
  -- The reads of a pass, all of the same state.
  · rintro ⟨rounds, v, j, hends, hpass⟩
    obtain ⟨sw, k, p, c, l, rows, hsw, hok, hp, hconv, hcok, hrows, hfit, -⟩ :=
      ends_check_pass.mp ⟨v, hends, hpass⟩
    obtain ⟨hik, p', hp', -, ⟨a, hia, -, hw⟩, hothers⟩ := ends_singleWriter hsw hok
    cases hp.symm.trans hp'
    obtain ⟨m, hkm, rfl, s, hs, hall⟩ := agreed_of_convergence hconv hcok
    rw [hstill a hia] at hw
    rw [hstill _ (by omega)] at hs hrows
    have hguarded : ∀ n ∈ nodes, n ≠ p → w.ReadOnly n ∧ w.Rejects n := fun n hn hne => by
      obtain ⟨b, hib, -, hread⟩ := hothers n hn hne
      rwa [hstill b hib, hstill (b + 1) (by omega)] at hread
    refine ⟨p, ?_, hw, hguarded, ⟨s, hs, fun n hn hne => ?_⟩, rows, hrows, hfit⟩
    · -- the loop has counted `p` as often as it is on the list
      simp only [singleWriter, Watch.ends_bind, Watch.ends_pure] at hsw
      obtain ⟨out, m', hprobes, rfl, -⟩ := hsw
      obtain ⟨probes, hcount, -⟩ := eval_probeNodes hw nodes hguarded
      have heq := (Watch.ends_still _ i hstill).mp ⟨m', hprobes⟩
      cases hcount.symm.trans heq
      simpa using congrArg List.length hp
    · have hreplica : n ∈ nodes.filter (· ≠ p) := List.mem_filter.mpr ⟨hn, by simpa using hne⟩
      obtain ⟨x, hx, rfl⟩ := List.mem_iff_getElem.mp hreplica
      have hread := hall x _ (List.getElem?_eq_getElem hx)
      rwa [hstill _ (by omega)] at hread
  -- In an intact state the probes, one round of convergence and the rows pass.
  · rintro ⟨p, honce, hw, hothers, ⟨s, hs, hall⟩, rows, hrows, hfit⟩
    obtain ⟨probes, hprobes, hnone⟩ := eval_probeNodes hw nodes hothers
    obtain ⟨k, hk⟩ := (Watch.ends_still _ i hstill).mpr hprobes
    have hik := Watch.le_of_ends _ _ hk
    rw [honce] at hk
    have hagree : Agreed h p (nodes.filter (· ≠ p)) (k + 1) := by
      refine ⟨s, by rwa [hstill _ (by omega)], fun n r hr => ?_⟩
      obtain ⟨hr, hne⟩ := List.mem_filter.mp (List.mem_of_getElem? hr)
      rw [hstill _ (by omega)]
      exact hall r hr (by simpa using hne)
    obtain ⟨c, hcok, hround⟩ := ends_of_agreed hagree
    have hconv : Ends h k (convergence p (nodes.filter (· ≠ p)) timeout 1) (some c)
        (k + 1 + ((nodes.filter (· ≠ p)).length + 2)) := by
      simp only [convergence, Watch.ends_bind, Watch.ends_ask]
      refine ⟨_, _, ⟨rfl, rfl⟩, (Watch.ends_loop _ _ _).mpr ?_⟩
      exact ⟨0, _, (), Nat.zero_lt_one, ⟨rfl, rfl⟩, hround⟩
    have hsw : ∃ sw, Ends h i (singleWriter nodes unreachable) sw k ∧ sw.ok = true ∧
        sw.writable = [p] := by
      simp only [singleWriter, Watch.ends_bind, Watch.ends_pure]
      exact ⟨_, ⟨_, k, hk, rfl, rfl⟩, by simp [hnone], rfl⟩
    obtain ⟨sw, hsw, hok, hp⟩ := hsw
    obtain ⟨v, hv⟩ := ends_check_pass.mpr
      ⟨sw, k, p, c, _, rows, hsw, hok, hp, hconv, hcok, by rwa [hstill _ (by omega)], hfit, rfl⟩
    exact ⟨1, v, _, hv⟩

/-- After instant 20, once with the acknowledged write and once with one that is lost. -/
theorem check_still_catchingUp :
    (∃ rounds v j, Ends (fun _ => catchingUp 20) 0
      (check ⟨{(1, 1)}, ∅⟩ ["a", "b"] [] 60 rounds) (some v) j ∧ v.pass = true) ∧
    ¬∃ rounds v j, Ends (fun _ => catchingUp 20) 0
      (check ⟨{(1, 1), (1, 2)}, ∅⟩ ["a", "b"] [] 60 rounds) (some v) j ∧ v.pass = true := by
  obtain ⟨s, hs⟩ : ∃ s, (GtidText.ofText "3e11fa47-71ca-11e1-9e33-c80aa9429562:1-5").parse =
      .ok s := ⟨_, rfl⟩
  have hset : ∀ n, (catchingUp 20).gtids n = .ok s := fun n => by
    have htext : (catchingUp 20).gtidExecuted n =
        .ok "3e11fa47-71ca-11e1-9e33-c80aa9429562:1-5" := congrArg _ (if_neg (by omega))
    rw [Shown.gtids, htext]
    exact hs
  constructor
  · refine (check_still _ _ _ _ _ 0 (catchingUp 20) fun _ _ => rfl).mpr
      ⟨"a", rfl, rfl, fun n hn hne => ?_, ⟨s, hset _, fun n _ _ => hset n⟩, {(1, 1)}, rfl,
        subset_rfl, Finset.subset_union_left⟩
    obtain rfl : n = "b" := by simpa [hne] using hn
    exact ⟨⟨(true, true), rfl, rfl⟩, "super_read_only", rfl⟩
  · rw [check_still _ _ _ _ _ 0 (catchingUp 20) fun _ _ => rfl]
    rintro ⟨p, -, -, -, -, rows, hrows, hlossless, -⟩
    obtain rfl : ({(1, 1)} : Finset (Nat × Nat)) = rows := Except.ok.inj hrows
    exact absurd hlossless (by decide)

end

end DbGuard.Harness

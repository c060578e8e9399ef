import DbGuard.Bootstrap
import DbGuard.Proofs.Choice
import DbGuard.Proofs.Script

/-!
# `DbGuard.Proofs.ColdStart`: whom a whole-set restart promotes

`coldStartChoice` filters, ranks by count and compares by inclusion. `coldStartChoice_spec` says
what comes out of it in terms of the members alone: `Usable` members that answered, `Booted`
ones that look like a node after a reboot, and `Whole` ones whose executed set is all that the
usable members hold. All whole members have the same executed set, so the rank by count only
leaves the members' order.
-/

set_option autoImplicit false

namespace DbGuard

/-! ### The rule -/

section
variable (views : Views) (members : List Node)

/-- A member that answers, with its mysqld. -/
def Usable (m : Node) : Prop :=
  m ∈ members ∧ m ∈ views.keys ∧ (views.view m).usable = true

/-- A usable member that is unfenced and read-only. -/
def Booted (m : Node) : Prop :=
  Usable views members m ∧ (views.view m).fenced = false ∧
    (views.view m).superReadOnly = some true

/-- A booted member whose gtid_executed is the union of what the usable members hold. -/
def Whole (m : Node) : Prop :=
  Booted views members m ∧ ∀ g, g ∈ (views.view m).gtidExecuted ↔
    ∃ n, Usable views members n ∧ g ∈ (views.view n).held

/-- No usable member is writable. -/
def NoneWritable : Prop := ∀ m, Usable views members m → (views.view m).writable = false

/-- The believed primary is a booted member. Without one every member is usable, and one of
them has replication configured. -/
def Restarted : Option Node → Prop
  | some b => Booted views members b
  | none => (∀ m ∈ members, Usable views members m) ∧
      ∃ m, Usable views members m ∧ (views.view m).replica.configured = true

/-- The believed primary if it is whole, else the first whole member. -/
def Chosen (believed : Option Node) (m : Node) : Prop :=
  Whole views members m ∧ (believed = some m ∨
    (∀ b, believed = some b → ¬ Whole views members b) ∧
      ∀ n, Whole views members n → members.idxOf m ≤ members.idxOf n)

/-- `reach`. -/
def reach : List Node := (memberViews views members).keys.filter fun m => (views.view m).usable

/-- `everything`. -/
def everything : GtidSet :=
  (reach views members).foldl (fun e m => e ∪ (views.view m).held) .empty

end

section
variable {views : Views} {members : List Node} {believed : Option Node} {m n : Node}

/-- The views of the members are those of members that were seen. -/
theorem mem_memberViews : m ∈ (memberViews views members).keys ↔ m ∈ members ∧ m ∈ views.keys := by
  show m ∈ (members.filter (· ∈ views.keys)).eraseDups ↔ _
  rw [List.mem_eraseDups, List.mem_filter, decide_eq_true_eq]

/-- A member is in reach if it is usable. -/
theorem mem_reach : m ∈ reach views members ↔ Usable views members m := by
  rw [reach, List.mem_filter, mem_memberViews, and_assoc]
  rfl

/-- What a fold of unions holds. -/
theorem mem_foldl_held (l : List Node) (e : GtidSet) (g : Gtid) :
    g ∈ l.foldl (fun e m => e ∪ (views.view m).held) e ↔
      g ∈ e ∨ ∃ m ∈ l, g ∈ (views.view m).held := by
  induction l generalizing e with
  | nil => simp
  | cons m l ih =>
      rw [List.foldl_cons, ih, GtidSet.mem_union, List.exists_mem_cons_iff, or_assoc]

/-- Everything is what some usable member holds. -/
theorem mem_everything (g : Gtid) :
    g ∈ everything views members ↔ ∃ n, Usable views members n ∧ g ∈ (views.view n).held := by
  have hempty : g ∉ GtidSet.empty := by simp [GtidSet.mem_def, GtidSet.empty]
  rw [everything, mem_foldl_held]
  simp only [hempty, false_or, mem_reach]

/-- A node's executed set is a part of what it holds. -/
theorem executed_subset_held (nv : NodeView) : nv.gtidExecuted ⊆ nv.held := by
  intro g hg
  rw [NodeView.mem_held]
  exact .inl ((GtidSet.mem_union _ _ g).mpr (.inl hg))

/-- A member is whole if its executed set includes everything. -/
theorem whole_iff : Whole views members m ↔ Booted views members m ∧
    (everything views members).isSubset (views.view m).gtidExecuted = true := by
  rw [GtidSet.isSubset_iff]
  constructor
  · rintro ⟨hboot, heq⟩
    exact ⟨hboot, fun g hg => (heq g).mpr ((mem_everything g).mp hg)⟩
  · rintro ⟨hboot, hsub⟩
    refine ⟨hboot, fun g => ⟨fun hg => ⟨m, hboot.1, executed_subset_held _ g hg⟩, fun hg => ?_⟩⟩
    exact hsub g ((mem_everything g).mpr hg)

/-- Whole members have the same executed set. -/
theorem Whole.same (hm : Whole views members m) (hn : Whole views members n) :
    (views.view m).gtidExecuted = (views.view n).gtidExecuted :=
  GtidSet.ext_mem fun g => (hm.2 g).trans (hn.2 g).symm

/-- A list without repeats has none to drop. -/
theorem eraseDups_of_nodup {l : List Node} (h : l.Nodup) : l.eraseDups = l := by
  induction l with
  | nil => rfl
  | cons a l ih =>
      obtain ⟨hnotin, hl⟩ := List.nodup_cons.mp h
      have hfilter : l.filter (fun b => !b == a) = l := by
        refine List.filter_eq_self.mpr fun b hb => ?_
        have hne : b ≠ a := fun heq => hnotin (heq ▸ hb)
        simpa using hne
      rw [List.eraseDups_cons, hfilter, ih hl]

/-- Every member is reached if as many are. -/
theorem length_reach_iff (hnodup : members.Nodup) :
    members.length ≤ (reach views members).length ↔ ∀ m ∈ members, Usable views members m := by
  have hkeys : (memberViews views members).keys = members.filter (· ∈ views.keys) :=
    eraseDups_of_nodup (hnodup.filter _)
  have hreach : reach views members =
      members.filter fun m => (views.view m).usable && decide (m ∈ views.keys) := by
    rw [reach, hkeys, List.filter_filter]
  have hle : (reach views members).length ≤ members.length := by
    rw [hreach]
    exact List.length_filter_le _ _
  have heq : members.length ≤ (reach views members).length ↔
      (reach views members).length = members.length :=
    ⟨fun h => Nat.le_antisymm hle h, fun h => h.ge⟩
  rw [heq, hreach, List.length_filter_eq_length_iff]
  refine forall₂_congr fun m hm => ?_
  rw [Bool.and_eq_true, decide_eq_true_eq]
  exact ⟨fun h => ⟨hm, h.2, h.1⟩, fun h => ⟨h.2.2, h.2.1⟩⟩

/-! ### The choice -/

/-- `full`. -/
def fullMembers (views : Views) (members : List Node) : List Node :=
  ((reach views members).filter fun m =>
    !(views.view m).fenced && (views.view m).superReadOnly == some true).filter fun m =>
      (everything views members).isSubset (views.view m).gtidExecuted

/-- The candidates are the members that booted. -/
theorem mem_cands : (m ∈ (reach views members).filter fun m =>
    !(views.view m).fenced && (views.view m).superReadOnly == some true) ↔
      Booted views members m := by
  rw [List.mem_filter, mem_reach, Bool.and_eq_true, Bool.not_eq_true', beq_iff_eq]
  rfl

/-- The full members are those that hold everything. -/
theorem mem_fullMembers : m ∈ fullMembers views members ↔ Whole views members m := by
  rw [fullMembers, List.mem_filter, mem_cands, whole_iff]

/-- No member is writable exactly if none is found. -/
theorem any_writable_iff : ((reach views members).any fun m => (views.view m).writable) = false ↔
    NoneWritable views members := by
  rw [List.any_eq_false]
  constructor
  · intro h m hm
    simpa using h m (mem_reach.mpr hm)
  · intro h m hm
    rw [h m (mem_reach.mp hm)]
    exact Bool.false_ne_true

/-- The first of the whole members. -/
theorem first_of_firstMin
    (h : firstMin (fun m => [-(views.view m).gtidExecuted.count, members.idxOf m])
      (fullMembers views members) = some m) :
    Whole views members m ∧ ∀ n, Whole views members n → members.idxOf m ≤ members.idxOf n := by
  have hm := mem_fullMembers.mp (firstMin_mem h)
  refine ⟨hm, fun n hn => ?_⟩
  have hle := firstMin_le h n (mem_fullMembers.mpr hn)
  rw [hm.same hn, ← not_lt, List.cons_lt_cons_iff, List.cons_lt_cons_iff] at hle
  have hnil : ¬ ([] : List Int) < [] := lt_irrefl _
  simp only [hnil, and_false, or_false, lt_irrefl, true_and, false_or] at hle
  omega

/-- Two chosen nodes are the same. -/
theorem Chosen.unique (hm : Chosen views members believed m) (hn : Chosen views members believed n) :
    m = n := by
  obtain ⟨hwm, hm⟩ := hm
  obtain ⟨hwn, hn⟩ := hn
  rcases hm with hm | ⟨hnone, hm⟩ <;> rcases hn with hn | ⟨hnone', hn⟩
  · rw [hm] at hn
    exact Option.some.inj hn
  · exact absurd hwm (hnone' m hm)
  · exact absurd hwn (hnone n hn)
  · have heq : members.idxOf m = members.idxOf n := le_antisymm (hm n hwn) (hn m hwm)
    exact (List.idxOf_inj hwm.1.1.1).mp heq

/-- `restarted`. -/
def restarted (views : Views) (members : List Node) : Option Node → Bool
  | some b => b ∈ reach views members &&
      (!(views.view b).fenced && (views.view b).superReadOnly == some true)
  | none => ((reach views members).any fun m => (views.view m).replica.configured) &&
      members.length ≤ (reach views members).length

/-- The check of a restart of the whole set says what it should. -/
theorem restarted_iff (hnodup : members.Nodup) :
    restarted views members believed = true ↔ Restarted views members believed := by
  cases believed with
  | some b =>
      rw [restarted, Bool.and_eq_true, decide_eq_true_eq, mem_reach, Bool.and_eq_true,
        Bool.not_eq_true', beq_iff_eq]
      rfl
  | none =>
      rw [restarted, Bool.and_eq_true, decide_eq_true_eq, length_reach_iff hnodup, List.any_eq_true,
        and_comm]
      simp only [mem_reach]
      rfl

/-- The choice with the text of its HALT left open. -/
theorem coldStartChoice_eq (views : Views) (members : List Node) (believed : Option Node) :
    ∃ reason, coldStartChoice views members believed =
      if (reach views members).any fun m => (views.view m).writable then .no
      else if !restarted views members believed then .no
      else match believed.filter (· ∈ fullMembers views members),
          firstMin (fun m => [-(views.view m).gtidExecuted.count, members.idxOf m])
            (fullMembers views members) with
        | some b, _ => .promote b
        | none, some m => .promote m
        | none, none => .halt reason := by
  cases believed with
  | some b => exact ⟨_, rfl⟩
  | none => exact ⟨_, rfl⟩

/-- A set that runs is left alone. -/
theorem coldStartChoice_eq_no (hnodup : members.Nodup)
    (h : ¬ (NoneWritable views members ∧ Restarted views members believed)) :
    coldStartChoice views members believed = .no := by
  rw [← any_writable_iff, ← restarted_iff hnodup, not_and] at h
  obtain ⟨reason, heq⟩ := coldStartChoice_eq views members believed
  rw [heq]
  split
  · rfl
  · rename_i hnone
    have hnot : restarted views members believed = false := by
      simpa using h (by simpa using hnone)
    rw [hnot]
    rfl

/-- After a restart a whole member is promoted, and without one the set is halted. -/
theorem coldStartChoice_of_restarted (hnodup : members.Nodup)
    (ha : NoneWritable views members) (hb : Restarted views members believed) :
    (∃ m, coldStartChoice views members believed = .promote m ∧ Chosen views members believed m) ∨
      ((¬ ∃ m, Whole views members m) ∧
        ∃ reason, coldStartChoice views members believed = .halt reason) := by
  rw [← any_writable_iff] at ha
  rw [← restarted_iff hnodup] at hb
  obtain ⟨reason, heq⟩ := coldStartChoice_eq views members believed
  rw [heq, ha, hb]
  simp only [Bool.false_eq_true, if_false, Bool.not_true]
  split
  · rename_i b hfilter
    obtain ⟨hbelieved, hfull⟩ := Option.filter_eq_some_iff.mp hfilter
    exact .inl ⟨b, rfl, mem_fullMembers.mp (of_decide_eq_true hfull), .inl hbelieved⟩
  · rename_i m hfilter hmin
    obtain ⟨hwhole, hfirst⟩ := first_of_firstMin hmin
    refine .inl ⟨m, rfl, hwhole, .inr ⟨fun b hbelieved hb => ?_, hfirst⟩⟩
    rw [hbelieved, Option.filter_eq_none_iff] at hfilter
    exact hfilter b rfl (decide_eq_true (mem_fullMembers.mpr hb))
  · rename_i hfilter hmin
    refine .inr ⟨?_, reason, rfl⟩
    rintro ⟨m, hm⟩
    have hmem := mem_fullMembers.mpr hm
    rw [firstMin_eq_none.mp hmin] at hmem
    cases hmem

/-- The choice depends on what the views say and not on their order. -/
theorem coldStartChoice_order (keys : List Node) (h : ∀ n, n ∈ keys ↔ n ∈ views.keys) :
    coldStartChoice { views with keys } members believed =
      coldStartChoice views members believed := by
  have hkeys : (memberViews { views with keys } members).keys =
      (memberViews views members).keys := by
    have hfilter : members.filter (· ∈ keys) = members.filter (· ∈ views.keys) :=
      List.filter_congr fun n _ => decide_eq_decide.mpr (h n)
    exact congrArg List.eraseDups hfilter
  unfold coldStartChoice
  simp only [hkeys]

/-- What `cold_start_choice` returns, exactly. -/
theorem coldStartChoice_spec (views : Views) (members : List Node) (believed : Option Node)
    (hnodup : members.Nodup) :
    ((∃ m, coldStartChoice views members believed = .promote m) ↔
      NoneWritable views members ∧ Restarted views members believed ∧
        ∃ m, Whole views members m) ∧
    (∀ m, coldStartChoice views members believed = .promote m →
      Chosen views members believed m) ∧
    ((∃ reason, coldStartChoice views members believed = .halt reason) ↔
      NoneWritable views members ∧ Restarted views members believed ∧
        ¬ ∃ m, Whole views members m) ∧
    (∀ keys, (∀ n, n ∈ keys ↔ n ∈ views.keys) →
      coldStartChoice { views with keys } members believed =
        coldStartChoice views members believed) ∧
    ∀ m n, coldStartChoice views members believed = .promote m → Usable views members n →
      (views.view n).held ⊆ (views.view m).gtidExecuted := by
  -- A node is promoted only after the whole set has restarted and none is writable.
  have hpromote : ∀ m, coldStartChoice views members believed = .promote m →
      NoneWritable views members ∧ Restarted views members believed ∧
        Chosen views members believed m := by
    intro m hm
    by_cases hab : NoneWritable views members ∧ Restarted views members believed
    · refine ⟨hab.1, hab.2, ?_⟩
      rcases coldStartChoice_of_restarted hnodup hab.1 hab.2 with ⟨n, hn, hchosen⟩ | ⟨-, r, hr⟩
      · rw [hn] at hm
        cases hm
        exact hchosen
      · rw [hr] at hm
        cases hm
    · rw [coldStartChoice_eq_no hnodup hab] at hm
      cases hm
  -- The five parts: when a node is promoted, which one, when the choice halts, that the order of
  -- the views does not matter, and that nothing is lost.
  refine ⟨⟨?_, ?_⟩, fun m hm => (hpromote m hm).2.2, ⟨?_, ?_⟩,
    fun keys hkeys => coldStartChoice_order keys hkeys, ?_⟩
  · rintro ⟨m, hm⟩
    obtain ⟨ha, hb, hchosen⟩ := hpromote m hm
    exact ⟨ha, hb, m, hchosen.1⟩
  · rintro ⟨ha, hb, m, hm⟩
    rcases coldStartChoice_of_restarted hnodup ha hb with ⟨n, hn, -⟩ | ⟨hnone, -⟩
    · exact ⟨n, hn⟩
    · exact absurd ⟨m, hm⟩ hnone
  · rintro ⟨r, hr⟩
    by_cases hab : NoneWritable views members ∧ Restarted views members believed
    · refine ⟨hab.1, hab.2, ?_⟩
      rcases coldStartChoice_of_restarted hnodup hab.1 hab.2 with ⟨n, hn, -⟩ | ⟨hnone, -⟩
      · rw [hn] at hr
        cases hr
      · exact hnone
    · rw [coldStartChoice_eq_no hnodup hab] at hr
      cases hr
  · rintro ⟨ha, hb, hnone⟩
    rcases coldStartChoice_of_restarted hnodup ha hb with ⟨n, -, hchosen⟩ | ⟨-, hr⟩
    · exact absurd ⟨n, hchosen.1⟩ hnone
    · exact hr
  -- The chosen node has executed whatever a usable one holds.
  · intro m n hm hn g hg
    exact ((hpromote m hm).2.2.1.2 g).mpr ⟨n, hn, hg⟩

end

/-- A node after its reboot: it answers, is read-only and has executed and received some sets. -/
def rebooted (name : Node) (executed received : Int) : NodeView :=
  NodeView.fromStatus name
    { mysqldAlive := true, mysqldResponsive := true, superReadOnly := some true
      gtidExecuted := upTo executed
      replica := some { configured := true, retrievedGtidSet := upTo received } }

/-- Three nodes after a reboot: "c" had received a transaction that only "b" has executed too. -/
def rebootedSet : Views where
  keys := ["a", "b", "c"]
  view n := if n = "b" then rebooted n 5 5 else rebooted n 4 5

/-- The set in the example starts from `b`. -/
theorem coldStartChoice_rebootedSet : ["a", "b", "c"].Nodup ∧
    Chosen rebootedSet ["a", "b", "c"] none "b" :=
  ⟨by decide, (coldStartChoice_spec rebootedSet ["a", "b", "c"] none (by decide)).2.1 "b"
    (by decide +kernel)⟩

/-- A believed primary that has booted like a member but is none leaves the set alone. -/
theorem coldStartChoice_of_stranger :
    let views : Views := { keys := ["a", "x"], view := fun n => rebooted n 4 4 }
    let x := views.view "x"
    ["a"].Nodup ∧ x.usable = true ∧ x.fenced = false ∧ x.superReadOnly = some true ∧
      (∀ m ∈ ["a"], m ∈ views.keys → (views.view m).usable = true →
        (views.view m).writable = false) ∧
      (views.view "a").usable = true ∧ (views.view "a").fenced = false ∧
      (views.view "a").superReadOnly = some true ∧
      (views.view "a").gtidExecuted = .empty ∪ (views.view "a").held ∧
      coldStartChoice views ["a"] (some "x") = .no := by
  decide +kernel

end DbGuard

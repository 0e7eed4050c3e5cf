/-!
# Interleavings

Where several take turns, what they do is one list of deeds, each with the index of who does it.
`Interleaves own all` says that the deeds of an index are its own, in its own order, and says
nothing of how they stand among those of others.

* `Interleaves.perm`: two interleavings of the same differ in their order alone.
* `interleaves_oneByOne`: to do everything one by one is the interleaving without turns.
* `forall_undivided_iff`: others can come in between one's deeds unless there are no others, or
  nobody has more than one.
-/

namespace CommandSuite

variable {β γ : Type}

/-! ## The part of one -/

/-- What the one at an index does. -/
def part (index : Nat) (all : List (Nat × β)) : List β :=
  (all.filter fun deed => deed.1 = index).map Prod.snd

@[simp] theorem part_append (index : Nat) (all later : List (Nat × β)) :
    part index (all ++ later) = part index all ++ part index later := by
  rw [part, List.filter_append, List.map_append]
  rfl

theorem part_cons (index : Nat) (deed : Nat × β) (all : List (Nat × β)) :
    part index (deed :: all) =
      if deed.1 = index then deed.2 :: part index all else part index all := by
  by_cases same : deed.1 = index <;> simp [part, same]

/-- Of what one does, it does all, and others nothing. -/
theorem part_map_mk (index who : Nat) (deeds : List β) :
    part index (deeds.map (who, ·)) = if who = index then deeds else [] := by
  induction deeds with
  | nil => split <;> rfl
  | cons deed deeds ih =>
    rw [List.map_cons, part_cons, ih]
    split <;> rfl

theorem mem_part {index : Nat} {deed : β} {all : List (Nat × β)} :
    deed ∈ part index all ↔ (index, deed) ∈ all := by
  simp [part]

/-- As often as one does something, it stands among all that is done. -/
theorem count_part [DecidableEq β] (index : Nat) (deed : β) (all : List (Nat × β)) :
    (part index all).count deed = all.count (index, deed) := by
  induction all with
  | nil => rfl
  | cons first all ih =>
    obtain ⟨who, what⟩ := first
    rw [part_cons, List.count_cons, ← ih]
    by_cases same : who = index <;> simp [same, List.count_cons]

/-- What remains of each deed under `f`, where something does. -/
def pick (f : β → Option γ) (all : List (Nat × β)) : List (Nat × γ) :=
  all.filterMap fun deed => (f deed.2).map (deed.1, ·)

theorem pick_append (f : β → Option γ) (all later : List (Nat × β)) :
    pick f (all ++ later) = pick f all ++ pick f later := List.filterMap_append

theorem part_pick (f : β → Option γ) (index : Nat) (all : List (Nat × β)) :
    part index (pick f all) = (part index all).filterMap f := by
  induction all with
  | nil => rfl
  | cons deed all ih =>
    obtain ⟨who, what⟩ := deed
    cases kept : f what <;> by_cases same : who = index <;>
      simp_all [pick, part_cons]

theorem part_map (f : β → γ) (index : Nat) (all : List (Nat × β)) :
    part index (all.map fun deed => (deed.1, f deed.2)) = (part index all).map f := by
  rw [part, part, List.filter_map, List.map_map, List.map_map]
  rfl

theorem map_snd_pick_map_mk (f : β → Option γ) (who : Nat) (deeds : List β) :
    (pick f (deeds.map (who, ·))).map Prod.snd = deeds.filterMap f := by
  induction deeds with
  | nil => rfl
  | cons deed deeds ih => cases kept : f deed <;> simp_all [pick]

/-! ## Interleavings -/

/-- Each does its own, in its own order, whatever others do in between. -/
def Interleaves (own : Nat → List β) (all : List (Nat × β)) : Prop :=
  ∀ index, part index all = own index

theorem Interleaves.perm {own : Nat → List β} {all all' : List (Nat × β)}
    (each : Interleaves own all) (each' : Interleaves own all') : all.Perm all' := by
  classical
  refine List.perm_iff_count.2 fun (index, deed) => ?_
  rw [← count_part, ← count_part, each index, each' index]

theorem Interleaves.pick {own : Nat → List β} {all : List (Nat × β)} (each : Interleaves own all)
    (f : β → Option γ) : Interleaves (fun index => (own index).filterMap f) (pick f all) :=
  fun index => by rw [part_pick, each index]

/-- If nobody has anything to do, nothing is done. -/
theorem Interleaves.eq_nil {own : Nat → List β} {all : List (Nat × β)}
    (each : Interleaves own all)
    (nothing : ∀ index, own index = []) : all = [] := by
  refine List.eq_nil_iff_forall_not_mem.2 fun (index, deed) mem => ?_
  have mine := mem_part.2 mem
  rw [each index, nothing index] at mine
  cases mine

/-- The list at an index as what belongs to that index, which is nothing behind the last list. -/
def ownOf (owns : List (List β)) (index : Nat) : List β := owns[index]?.getD []

theorem ownOf_set {owns : List (List β)} {who : Nat} (does : ownOf owns who ≠ []) (deeds : List β)
    (index : Nat) :
    ownOf (owns.set who deeds) index = if who = index then deeds else ownOf owns index := by
  have inRange : who < owns.length := by
    refine Nat.lt_of_not_le fun beyond => does ?_
    rw [ownOf, List.getElem?_eq_none beyond]
    rfl
  rw [ownOf, List.getElem?_set]
  by_cases here : who = index
  · rw [if_pos here, if_pos here, if_pos inRange]
    rfl
  · rw [if_neg here, if_neg here]
    rfl

/-- Each list in turn, with the indices from the given one on. -/
def oneByOne : Nat → List (List β) → List (Nat × β)
  | _, [] => []
  | first, own :: later => own.map (first, ·) ++ oneByOne (first + 1) later

theorem part_oneByOne (first index : Nat) (owns : List (List β)) :
    part index (oneByOne first owns) =
      if index < first then [] else ownOf owns (index - first) := by
  induction owns generalizing first with
  | nil => split <;> rfl
  | cons own owns ih =>
    rw [oneByOne, part_append, part_map_mk, ih]
    rcases Nat.lt_trichotomy index first with before | rfl | behind
    · rw [if_neg (by omega), if_pos (by omega), if_pos before]
      rfl
    · rw [if_pos rfl, if_pos (Nat.lt_succ_self index), if_neg (Nat.lt_irrefl index), Nat.sub_self,
        List.append_nil]
      rfl
    · obtain ⟨more, rfl⟩ := Nat.exists_eq_add_of_lt behind
      rw [if_neg (by omega), if_neg (by omega), if_neg (by omega),
        show first + more + 1 - (first + 1) = more by omega,
        show first + more + 1 - first = more + 1 by omega]
      rfl

theorem part_oneByOne_zero (index : Nat) (owns : List (List β)) :
    part index (oneByOne 0 owns) = ownOf owns index := by
  rw [part_oneByOne, if_neg (Nat.not_lt_zero index), Nat.sub_zero]

theorem interleaves_oneByOne (owns : List (List β)) :
    Interleaves (ownOf owns) (oneByOne 0 owns) :=
  fun index => part_oneByOne_zero index owns

theorem map_snd_oneByOne (first : Nat) (owns : List (List β)) :
    (oneByOne first owns).map Prod.snd = owns.flatten := by
  induction owns generalizing first with
  | nil => rfl
  | cons own owns ih =>
    rw [oneByOne, List.map_append, ih, List.map_map, List.flatten_cons]
    exact congrArg (· ++ _) (List.map_id own)

/-! ## Turns in between -/

/-- What each does stands together, with nothing that others do in between. -/
def Undivided (own : Nat → List β) (all : List (Nat × β)) : Prop :=
  ∀ index, (own index).map (index, ·) <:+: all

theorem infix_oneByOne (first index : Nat) (owns : List (List β)) :
    (ownOf owns index).map (first + index, ·) <:+: oneByOne first owns := by
  induction owns generalizing first index with
  | nil => exact List.nil_infix
  | cons own owns ih =>
    cases index with
    | zero => exact (List.prefix_append _ _).isInfix
    | succ index =>
      have later := ih (first + 1) index
      rw [Nat.add_right_comm] at later
      exact later.trans (List.suffix_append _ _).isInfix

theorem undivided_oneByOne (owns : List (List β)) :
    Undivided (ownOf owns) (oneByOne 0 owns) := by
  intro index
  have together := infix_oneByOne 0 index owns
  rwa [Nat.zero_add] at together

variable {own : Nat → List β} {all : List (Nat × β)}

/-- A single deed cannot be divided. -/
theorem Interleaves.infix_of_length_le_one (each : Interleaves own all) {index : Nat}
    (short : (own index).length ≤ 1) : (own index).map (index, ·) <:+: all := by
  cases deeds : own index with
  | nil => exact List.nil_infix
  | cons deed later =>
    rw [deeds, List.length_cons] at short
    obtain rfl := List.eq_nil_of_length_eq_zero (by omega : later.length = 0)
    have done : (index, deed) ∈ all := mem_part.1 (by rw [each index, deeds]; exact .head _)
    obtain ⟨before, after, rfl⟩ := List.append_of_mem done
    exact ⟨before, after, by simp⟩

/-- Nobody comes in between if there is nobody else. -/
theorem Interleaves.undivided_of_alone (each : Interleaves own all) {who : Nat}
    (alone : ∀ index, index ≠ who → own index = []) : Undivided own all := by
  have mine : ∀ deed ∈ all, deed.1 = who := by
    intro (index, deed) mem
    have does := mem_part.2 mem
    rw [each index] at does
    by_cases other : index = who
    · exact other
    · rw [alone index other] at does
      cases does
  have whole : (own who).map (who, ·) = all := by
    rw [← each who, part, List.filter_eq_self.2 fun deed mem => by simp [mine deed mem],
      List.map_map]
    conv => rhs; rw [← List.map_id all]
    exact List.map_congr_left fun deed mem => Prod.ext (mine deed mem).symm rfl
  intro index
  by_cases other : index = who
  · exact ⟨[], [], by rw [other, whole, List.nil_append, List.append_nil]⟩
  · rw [alone index other]
    exact List.nil_infix

/-- Someone else can come in between two deeds. -/
theorem exists_divided {owns : List (List β)} {who other : Nat} (distinct : who ≠ other)
    {first second turn : β} {later others : List β}
    (mine : ownOf owns who = first :: second :: later)
    (theirs : ownOf owns other = turn :: others) :
    ∃ all, Interleaves (ownOf owns) all ∧
      ¬ Undivided (ownOf owns) all := by
  let shorter := owns.set who (second :: later)
  have theirs' : ownOf shorter other = turn :: others := by
    rw [ownOf_set (by rw [mine]; exact List.cons_ne_nil _ _), if_neg distinct, theirs]
  have each : Interleaves (ownOf owns)
      ((who, first) :: (other, turn) :: oneByOne 0 (shorter.set other others)) := by
    intro index
    rw [part_cons, part_cons, part_oneByOne_zero,
      ownOf_set (by rw [theirs']; exact List.cons_ne_nil _ _),
      ownOf_set (by rw [mine]; exact List.cons_ne_nil _ _)]
    by_cases isWho : who = index
    · subst isWho
      rw [if_pos rfl, if_neg distinct.symm, if_neg distinct.symm, if_pos rfl, mine]
    · by_cases isOther : other = index
      · subst isOther
        rw [if_neg distinct, if_pos rfl, if_pos rfl, theirs]
      · rw [if_neg isWho, if_neg isOther, if_neg isOther, if_neg isWho]
  refine ⟨_, each, fun together => ?_⟩
  obtain ⟨before, after, split⟩ := together who
  simp only [mine] at split
  cases before with
  | nil =>
    -- The other's turn comes right behind the first deed.
    obtain ⟨_, next⟩ := List.cons.inj split
    exact distinct (congrArg Prod.fst (List.cons.inj next).1)
  | cons deed before =>
    -- The first deed would be done twice.
    obtain ⟨rfl, _⟩ := List.cons.inj split
    have tooMany := congrArg List.length (each who)
    simp only [← split, part_append, part_map_mk, part_cons, mine, if_pos, List.length_append,
      List.length_cons] at tooMany
    omega

/-- Nothing comes in between, in whatever order, if nobody has more than one deed or there is
nobody else; otherwise something can. -/
theorem forall_undivided_iff (owns : List (List β)) :
    (∀ all, Interleaves (ownOf owns) all →
      Undivided (ownOf owns) all) ↔
      (∀ index, (ownOf owns index).length ≤ 1) ∨
        ∃ who, ∀ index, index ≠ who → ownOf owns index = [] := by
  constructor
  · intro always
    by_cases short : ∀ index, (ownOf owns index).length ≤ 1
    · exact .inl short
    · obtain ⟨who, long⟩ := Classical.not_forall.1 short
      refine .inr ⟨who, fun other distinct => ?_⟩
      match mine : ownOf owns who, theirs : ownOf owns other with
      | [], _ | [_], _ => rw [mine] at long; simp at long
      | _, [] => rfl
      | first :: second :: later, turn :: others =>
        obtain ⟨all, each, divided⟩ := exists_divided distinct.symm mine theirs
        exact absurd (always all each) divided
  · rintro (short | ⟨who, alone⟩) all each
    · exact fun index => each.infix_of_length_le_one (short index)
    · exact each.undivided_of_alone alone

end CommandSuite

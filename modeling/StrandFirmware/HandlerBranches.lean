import StrandFirmware.Handler

/-!
# The branches that a message runs

A message runs at most one branch of each chain: the words of the first chain are compared whole
and differ, and those of the second differ in their first six letters.  Which branch it is depends
on the first slot alone.  So `dispatch` runs `standardMatch` and then, for a message over TCP and
unless the first branch returned, `tcpMatch` (`dispatch_eq`).
-/

namespace Strand

open CString MemoryFault

/-! ## The comparisons -/

namespace Branch

/-- The first slot, holding `w`, passes the comparison of the branch. -/
def accepts (b : Branch) (w : Row) : Bool :=
  match b.bound with
  | none => strcmpEqual w.toList (ascii b.word) = .ok true
  | some n => strncmpEqual w.toList (ascii b.word) n = .ok true

/-- The comparison of the branch stays inside a slot. -/
def FitsSlot (b : Branch) : Prop :=
  match b.bound with
  | none => (ascii b.word).length < COMMAND_SLOT_SIZE
  | some n => n ≤ COMMAND_SLOT_SIZE

/-- A comparison inside the first slot has a result, and it depends on this slot alone. -/
lemma test_eq {b : Branch} (hb : b.FitsSlot) {t : CommandLine} {w : Row} {rest : List Row}
    (ht : t.rows = w :: rest) : b.test t = .ok (b.accepts w) := by
  have hslot : t.slot 0 = w.toList ++ CommandLine.bytesOf rest := by
    simp [CommandLine.slot, ht, CommandLine.bytesOf]
  unfold FitsSlot at hb
  unfold test accepts
  rw [hslot]
  cases hbound : b.bound with
  | none =>
    rw [hbound] at hb
    have hlen : (ascii b.word).length < w.toList.length := by simpa using hb
    obtain ⟨v, hv⟩ := exists_strcmpEqual_eq_ok hlen
    simp only [strcmpEqual_append _ hlen, hv]
    cases v <;> simp
  | some n =>
    rw [hbound] at hb
    have hlen : n ≤ w.toList.length := by simpa using hb
    obtain ⟨v, hv⟩ := exists_strncmpEqual_eq_ok (ascii b.word) hlen
    simp only [strncmpEqual_append _ hlen, hv]
    cases v <;> simp

end Branch

/-- Every branch of the first chain compares a whole word, and compares inside the slot. -/
lemma bound_of_mem_standardBranches :
    ∀ b ∈ standardBranches, b.bound = none ∧ (ascii b.word).length < COMMAND_SLOT_SIZE ∧
      0 ∉ ascii b.word := by
  decide

/-- Every branch of the second chain compares at least six letters, inside the slot. -/
lemma bound_of_mem_tcpBranches :
    ∀ b ∈ tcpBranches, ∃ n ∈ b.bound, n ≤ COMMAND_SLOT_SIZE ∧ 6 ≤ n ∧
      6 ≤ (ascii b.word).length := by
  decide

/-- Every comparison stays inside the first slot. -/
lemma fitsSlot_of_mem {b : Branch} (hb : b ∈ standardBranches ∨ b ∈ tcpBranches) :
    b.FitsSlot := by
  unfold Branch.FitsSlot
  rcases hb with hb | hb
  · obtain ⟨hbound, hlen, -⟩ := bound_of_mem_standardBranches b hb
    simpa [hbound] using hlen
  · obtain ⟨n, hbound, hn, -⟩ := bound_of_mem_tcpBranches b hb
    simpa [Option.mem_def.mp hbound] using hn

/-- The words of the first chain differ. -/
lemma nodup_standardBranches : (standardBranches.map fun b => ascii b.word).Nodup := by decide

/-- The words of the second chain differ in their first six letters. -/
lemma nodup_tcpBranches : (tcpBranches.map fun b => (ascii b.word).take 6).Nodup := by decide

/-- At most one branch of the chain accepts a word. -/
def Exclusive (bs : List Branch) : Prop :=
  bs.Pairwise fun b c => ∀ w, ¬ (b.accepts w = true ∧ c.accepts w = true)

/-- At most one branch of the first chain accepts a word. -/
lemma exclusive_standardBranches : Exclusive standardBranches := by
  have hne := List.pairwise_map.mp nodup_standardBranches
  refine hne.imp_of_mem fun {b c} hb hc hbc w ⟨hw, hw'⟩ => hbc ?_
  obtain ⟨hbound, -, hb0⟩ := bound_of_mem_standardBranches b hb
  obtain ⟨hbound', -, hc0⟩ := bound_of_mem_standardBranches c hc
  simp only [Branch.accepts, hbound, hbound', decide_eq_true_eq] at hw hw'
  exact strcmpEqual_unique hw hw' hb0 hc0

/-- At most one branch of the second chain accepts a word. -/
lemma exclusive_tcpBranches : Exclusive tcpBranches := by
  have hne := List.pairwise_map.mp nodup_tcpBranches
  refine hne.imp_of_mem fun {b c} hb hc hbc w ⟨hw, hw'⟩ => hbc ?_
  obtain ⟨n, hbound, -, hn, hlen⟩ := bound_of_mem_tcpBranches b hb
  obtain ⟨n', hbound', -, hn', hlen'⟩ := bound_of_mem_tcpBranches c hc
  simp only [Branch.accepts, Option.mem_def.mp hbound, Option.mem_def.mp hbound',
    decide_eq_true_eq] at hw hw'
  rw [← take_eq_of_strncmpEqual hw hn hlen, take_eq_of_strncmpEqual hw' hn' hlen']

/-! ## The branch that runs -/

/-- The branch of the first chain that accepts the word. -/
def standardMatch (w : Row) : Option Branch := standardBranches.find? fun b => b.accepts w

/-- The branch of the second chain that accepts the word. -/
def tcpMatch (w : Row) : Option Branch := tcpBranches.find? fun b => b.accepts w

/-- Of exclusive branches the one that accepts the word is found. -/
lemma find?_eq_some_of_exclusive {bs : List Branch} (hexcl : Exclusive bs) {b : Branch}
    (hb : b ∈ bs) {w : Row} (hacc : b.accepts w = true) :
    (bs.find? fun b => b.accepts w) = some b := by
  induction bs with
  | nil => simp at hb
  | cons c bs ih =>
    obtain ⟨hc, hbs⟩ := List.pairwise_cons.mp hexcl
    rw [List.find?_cons]
    rcases List.mem_cons.mp hb with rfl | hb
    · simp [hacc]
    · have hno : c.accepts w = false := by
        simpa [hacc] using hc b hb w
      rw [hno]
      exact ih hbs hb

/-- A word of the first chain that starts like no word of the second has no branch there. -/
lemma tcpMatch_eq_none {b : Branch} (hb : b ∈ standardBranches)
    (hne : ∀ c ∈ tcpBranches, (ascii c.word).take 6 ≠ (ascii b.word).take 6)
    (hlen : 6 ≤ (ascii b.word).length) {w : Row} (hacc : b.accepts w = true) :
    tcpMatch w = none := by
  obtain ⟨hbound, -, -⟩ := bound_of_mem_standardBranches b hb
  simp only [Branch.accepts, hbound, decide_eq_true_eq] at hacc
  have hstart : w.toList.take 6 = (ascii b.word).take 6 := by
    rw [← take_eq_of_strcmpEqual hacc, List.take_take, Nat.min_eq_left hlen]
  refine List.find?_eq_none.mpr ?_
  intro c hc hacc'
  obtain ⟨n, hbound', -, hn, hlen'⟩ := bound_of_mem_tcpBranches c hc
  simp only [Branch.accepts, Option.mem_def.mp hbound', decide_eq_true_eq] at hacc'
  exact hne c hc ((take_eq_of_strncmpEqual hacc' hn hlen').symm.trans hstart)

/-- Run the branch that was found, if any; the flag says that it returned. -/
def execMatch (env : Environment) (t : CommandLine) (b : Option Branch) (h : Handling) :
    Except MemoryFault (Handling × Bool) :=
  match b with
  | none => .ok (h, false)
  | some b => (b.exec env t h).map fun h => (h, b.returns)

/-- Past the branches that do not accept the word, a chain does nothing. -/
lemma runBranches_of_not_accepts {bs : List Branch} {t : CommandLine} {w : Row} {rest : List Row}
    (env : Environment) (ht : t.rows = w :: rest) (hfit : ∀ b ∈ bs, b.FitsSlot)
    (hno : ∀ b ∈ bs, b.accepts w = false) (h : Handling) :
    runBranches env t bs h = .ok (h, false) := by
  induction bs with
  | nil => rfl
  | cons b bs ih =>
    have hb := hno b List.mem_cons_self
    simp only [runBranches, Branch.test_eq (hfit b List.mem_cons_self) ht, hb, bind, Except.bind]
    simpa using ih (fun c hc => hfit c (List.mem_cons_of_mem b hc))
      (fun c hc => hno c (List.mem_cons_of_mem b hc))

/-- A chain of exclusive branches runs the one that accepts the word. -/
theorem runBranches_eq_execMatch {bs : List Branch} {t : CommandLine} {w : Row} {rest : List Row}
    (env : Environment) (ht : t.rows = w :: rest) (hfit : ∀ b ∈ bs, b.FitsSlot)
    (hexcl : Exclusive bs) (h : Handling) :
    runBranches env t bs h = execMatch env t (bs.find? fun b => b.accepts w) h := by
  induction bs with
  | nil => rfl
  | cons b bs ih =>
    obtain ⟨hb, hbs⟩ := List.pairwise_cons.mp hexcl
    have hfit' : ∀ c ∈ bs, c.FitsSlot := fun c hc => hfit c (List.mem_cons_of_mem b hc)
    simp only [runBranches, Branch.test_eq (hfit b List.mem_cons_self) ht, bind, Except.bind]
    cases hacc : b.accepts w with
    | false =>
      have hfind : (b :: bs).find? (fun b => b.accepts w) = bs.find? fun b => b.accepts w := by
        rw [List.find?_cons, hacc]
      rw [hfind]
      simpa using ih hfit' hbs
    | true =>
      have hfind : (b :: bs).find? (fun b => b.accepts w) = some b := by
        rw [List.find?_cons, hacc]
      rw [hfind]
      have hrest : ∀ h', runBranches env t bs h' = .ok (h', false) :=
        runBranches_of_not_accepts env ht hfit' fun c hc => by
          simpa [hacc] using hb c hc w
      cases hexec : b.exec env t h with
      | error e => simp [execMatch, hexec, Except.map]
      | ok h' =>
        cases hret : b.returns <;> simp [execMatch, hexec, hret, hrest, Except.map]

/-- **What the comparisons of `command_handler` come to.** -/
theorem dispatch_eq {t : CommandLine} {w : Row} {rest : List Row} (env : Environment)
    (ht : t.rows = w :: rest) (type : ℤ) (h : Handling) :
    dispatch env t type h =
      match execMatch env t (standardMatch w) h with
      | .error e => .error e
      | .ok (h, returned) =>
        if returned ∨ type = 0 then .ok h
        else (execMatch env t (tcpMatch w) h).map Prod.fst := by
  rw [dispatch, runBranches_eq_execMatch env ht (fun b hb => fitsSlot_of_mem (.inl hb))
    exclusive_standardBranches]
  unfold standardMatch
  cases execMatch env t (standardBranches.find? fun b => b.accepts w) h with
  | error e => rfl
  | ok r =>
    obtain ⟨h, returned⟩ := r
    simp only [bind, Except.bind]
    split
    · rfl
    · rw [runBranches_eq_execMatch env ht (fun b hb => fitsSlot_of_mem (.inr hb))
        exclusive_tcpBranches]
      unfold tcpMatch
      cases execMatch env t (tcpBranches.find? fun b => b.accepts w) h <;> rfl

/-! ## The slots that a message reads -/

/-- Reading some slots: the first fault ends it. -/
lemma mapM_eq_error {α β ε : Type} {f : α → Except ε β} {e : ε} {l : List α}
    (hall : ∀ a ∈ l, f a = .error e ∨ ∃ b, f a = .ok b) (hex : ∃ a ∈ l, f a = .error e) :
    l.mapM f = .error e := by
  induction l with
  | nil => simp at hex
  | cons a l ih =>
    obtain ⟨ha, hl⟩ := List.forall_mem_cons.mp hall
    rw [List.mapM_cons]
    rcases ha with ha | ⟨b, hb⟩
    · simp [ha, bind, Except.bind]
    · have hex' : ∃ a ∈ l, f a = .error e := by
        obtain ⟨c, hc, hce⟩ := hex
        rcases List.mem_cons.mp hc with rfl | hc
        · simp [hb] at hce
        · exact ⟨c, hc, hce⟩
      simp [hb, ih hl hex', bind, Except.bind]

/-- Reading some slots without a fault. -/
lemma exists_mapM_eq_ok {α β ε : Type} {f : α → Except ε β} {l : List α}
    (hall : ∀ a ∈ l, ∃ b, f a = .ok b) : ∃ bs, l.mapM f = .ok bs := by
  induction l with
  | nil => exact ⟨[], rfl⟩
  | cons a l ih =>
    obtain ⟨⟨b, hb⟩, hl⟩ := List.forall_mem_cons.mp hall
    obtain ⟨bs, hbs⟩ := ih hl
    exact ⟨b :: bs, by simp [hb, hbs, bind, Except.bind, pure, Except.pure]⟩

/-- Reading the same values. -/
lemma mapM_congr_of_mem {α β ε : Type} {f g : α → Except ε β} {l : List α}
    (h : ∀ a ∈ l, f a = g a) : l.mapM f = l.mapM g := by
  induction l with
  | nil => rfl
  | cons a l ih =>
    obtain ⟨ha, hl⟩ := List.forall_mem_cons.mp h
    rw [List.mapM_cons, List.mapM_cons, ha, ih hl]

/-- Values that were read are found again by what they were read from. -/
lemma eq_ok_lookup_of_mapM {ε : Type} {f : ℤ → Except ε ℤ} {l vs : List ℤ}
    (h : l.mapM f = .ok vs) : ∀ a ∈ l, f a = .ok (((l.zip vs).lookup a).getD 0) := by
  induction l generalizing vs with
  | nil => simp
  | cons b l ih =>
    rw [List.mapM_cons] at h
    obtain ⟨v, hv, h⟩ := bind_eq_ok_iff.mp h
    obtain ⟨vs', hvs', h⟩ := bind_eq_ok_iff.mp h
    obtain rfl := Except.ok.inj h
    intro a ha
    rw [List.zip_cons_cons, List.lookup_cons]
    by_cases hab : a = b
    · subst hab
      simpa using hv
    · have hne : (a == b) = false := by simpa using hab
      rw [hne]
      exact ih hvs' a ((List.mem_cons.mp ha).resolve_left hab)

/-- Reading a slot either runs outside the table or has a value. -/
lemma atoiSlot_cases (t : CommandLine) (j : ℤ) :
    t.atoiSlot j = .error outOfBounds ∨ ∃ v, t.atoiSlot j = .ok v := by
  unfold CommandLine.atoiSlot
  split
  · exact atoi_cases _
  · exact .inl rfl

/-- The slots that the branch found reads. -/
def slotsOf (s : Stepper) (b : Option Branch) : List ℤ := (b.map fun b => b.slots s).getD []

/-- The slots that a message reads, `w` being the first slot and `s` the record it finds. -/
def slotsRead (s : Stepper) (w : Row) (type : ℤ) : List ℤ :=
  slotsOf s (standardMatch w) ++
    if (∃ b ∈ standardMatch w, b.returns = true) ∨ type = 0 then [] else slotsOf s (tcpMatch w)

/-- No branch of the second chain reads a slot that depends on the record. -/
lemma slots_eq_of_mem_tcpBranches : ∀ b ∈ tcpBranches, ∀ s s', b.slots s = b.slots s' := by
  simp only [tcpBranches, List.forall_mem_cons, List.not_mem_nil, false_implies, implies_true,
    and_true]
  exact ⟨fun _ _ => rfl, fun _ _ => rfl, fun _ _ => rfl, fun _ _ => rfl, fun _ _ => rfl,
    fun _ _ => rfl, fun _ _ => rfl⟩

/-- The slots of the second chain may be taken from any record. -/
lemma slotsOf_tcpMatch (w : Row) (s s' : Stepper) :
    slotsOf s (tcpMatch w) = slotsOf s' (tcpMatch w) := by
  unfold slotsOf
  cases hb : tcpMatch w with
  | none => rfl
  | some b => exact slots_eq_of_mem_tcpBranches b (List.mem_of_find?_eq_some hb) s s'

section Reads

variable {env : Environment} {t t' : CommandLine} {b : Option Branch} {h h' : Handling}

/-- Whether a branch returns is fixed. -/
lemma returned_iff {returned : Bool} (hexec : execMatch env t b h = .ok (h', returned)) :
    returned = true ↔ ∃ b' ∈ b, b'.returns = true := by
  cases b with
  | none =>
    obtain ⟨-, rfl⟩ : h = h' ∧ false = returned := by simpa [execMatch] using hexec
    simp
  | some b =>
    unfold execMatch at hexec
    cases hb : b.exec env t h with
    | error e => simp [hb, Except.map] at hexec
    | ok h'' =>
      obtain ⟨-, rfl⟩ : h'' = h' ∧ b.returns = returned := by simpa [hb, Except.map] using hexec
      simp

/-- **What running the branch that was found can do**: nothing, or the body of the branch with the
values of its slots. -/
lemma execMatch_cases {returned : Bool} (hexec : execMatch env t b h = .ok (h', returned)) :
    b = none ∧ h = h' ∨ ∃ c ∈ b, ∃ word : ℤ → ℤ,
      (∀ j ∈ c.slots h.stepper, t.atoiSlot j = .ok (word j)) ∧ c.act env word h = h' := by
  cases b with
  | none =>
    obtain ⟨heq, -⟩ := Prod.mk.inj (Except.ok.inj hexec)
    exact .inl ⟨rfl, heq⟩
  | some b =>
    obtain ⟨h₁, hact, heq⟩ := map_eq_ok_iff.mp hexec
    obtain ⟨rfl, -⟩ := Prod.mk.inj heq
    obtain ⟨values, hvalues, hact⟩ := bind_eq_ok_iff.mp hact
    exact .inr ⟨b, rfl, _, eq_ok_lookup_of_mapM hvalues, Except.ok.inj hact⟩

/-- A branch does the same when its slots have the same values. -/
lemma execMatch_congr (hread : ∀ j ∈ slotsOf h.stepper b, t.atoiSlot j = t'.atoiSlot j) :
    execMatch env t b h = execMatch env t' b h := by
  cases b with
  | none => rfl
  | some b =>
    have hmap : (b.slots h.stepper).mapM t.atoiSlot = (b.slots h.stepper).mapM t'.atoiSlot :=
      mapM_congr_of_mem hread
    rw [execMatch, execMatch, Branch.exec, Branch.exec, hmap]

/-- A branch faults when one of its slots does. -/
lemma execMatch_eq_error (hread : ∃ j ∈ slotsOf h.stepper b, t.atoiSlot j = .error outOfBounds) :
    execMatch env t b h = .error outOfBounds := by
  cases b with
  | none => simp [slotsOf] at hread
  | some b =>
    have hmap : (b.slots h.stepper).mapM t.atoiSlot = .error outOfBounds :=
      mapM_eq_error (fun j _ => atoiSlot_cases t j) hread
    rw [execMatch, Branch.exec, hmap]
    rfl

variable (env) in
/-- A branch runs when its slots can be read. -/
lemma exists_execMatch_eq_ok (hread : ∀ j ∈ slotsOf h.stepper b, ∃ v, t.atoiSlot j = .ok v) :
    ∃ r, execMatch env t b h = .ok r := by
  cases b with
  | none => exact ⟨_, rfl⟩
  | some b =>
    obtain ⟨values, hvalues⟩ : ∃ vs, (b.slots h.stepper).mapM t.atoiSlot = .ok vs :=
      exists_mapM_eq_ok hread
    rw [execMatch, Branch.exec, hvalues]
    exact ⟨_, rfl⟩

end Reads

section Dispatch

variable {env : Environment} {t t' : CommandLine} {w : Row} {rest rest' : List Row} {type : ℤ}
  {h : Handling}

/-- **What the comparisons can do**: run the branch of the first chain and, unless this ends it,
that of the second. -/
lemma dispatch_cases {h' : Handling} (ht : t.rows = w :: rest)
    (hdispatch : dispatch env t type h = .ok h') :
    ∃ h₁ returned, execMatch env t (standardMatch w) h = .ok (h₁, returned) ∧
      ((returned = true ∨ type = 0) ∧ h₁ = h' ∨ ¬ (returned = true ∨ type = 0) ∧
        ∃ returned', execMatch env t (tcpMatch w) h₁ = .ok (h', returned')) := by
  rw [dispatch_eq env ht] at hdispatch
  cases hexec : execMatch env t (standardMatch w) h with
  | error e => simp [hexec] at hdispatch
  | ok r =>
    obtain ⟨h₁, returned⟩ := r
    simp only [hexec] at hdispatch
    refine ⟨h₁, returned, rfl, ?_⟩
    split at hdispatch
    next hend => exact .inl ⟨hend, Except.ok.inj hdispatch⟩
    next hgo =>
      obtain ⟨⟨h₂, returned'⟩, hexec', rfl⟩ := map_eq_ok_iff.mp hdispatch
      exact .inr ⟨hgo, returned', hexec'⟩

/-- A message that is handled is parsed first, and all else is left to the comparisons. -/
lemma commandHandler_cases {s s' : NetState} {m : List Byte} {es : List Effect}
    (h : commandHandler env s m type = .ok (s', es)) :
    ∃ n t id h', getCommandLine env.stack s.commandLine s.multicastId m type = .ok (n, t, id) ∧
      dispatch env t type ⟨s.stepper, s.location, []⟩ = .ok h' ∧
        s' = ⟨t, id, h'.stepper, h'.location⟩ ∧ h'.effects = es := by
  obtain ⟨⟨n, t, id⟩, hline, h⟩ := bind_eq_ok_iff.mp h
  obtain ⟨h', hdispatch, h⟩ := bind_eq_ok_iff.mp h
  obtain ⟨hstate, heffects⟩ := Prod.mk.inj (Except.ok.inj h)
  exact ⟨n, t, id, h', hline, hdispatch, hstate.symm, heffects⟩

/-- After the first chain, the slots still to be read are those of the second. -/
lemma mem_slotsRead_of_tcpMatch {h' : Handling} {returned : Bool}
    (hexec : execMatch env t (standardMatch w) h = .ok (h', returned))
    (hgo : ¬ (returned = true ∨ type = 0)) {j : ℤ} :
    j ∈ slotsRead h.stepper w type ↔
      j ∈ slotsOf h.stepper (standardMatch w) ∨ j ∈ slotsOf h'.stepper (tcpMatch w) := by
  rw [returned_iff hexec] at hgo
  rw [slotsRead, if_neg hgo, List.mem_append, slotsOf_tcpMatch w h.stepper h'.stepper]

/-- **A message does the same** when the first slot is the same and the slots it reads have the
same values. -/
theorem dispatch_congr (ht : t.rows = w :: rest) (ht' : t'.rows = w :: rest')
    (hread : ∀ j ∈ slotsRead h.stepper w type, t.atoiSlot j = t'.atoiSlot j) :
    dispatch env t type h = dispatch env t' type h := by
  rw [dispatch_eq env ht, dispatch_eq env ht', execMatch_congr (List.forall_mem_append.mp hread).1]
  cases hexec : execMatch env t' (standardMatch w) h with
  | error e => rfl
  | ok r =>
    obtain ⟨h', returned⟩ := r
    dsimp only
    split
    · rfl
    next hgo =>
      rw [execMatch_congr fun j hj => hread j ((mem_slotsRead_of_tcpMatch hexec hgo).mpr (.inr hj))]

/-- **A message faults** when one of the slots it reads does. -/
theorem dispatch_eq_error (ht : t.rows = w :: rest)
    (hread : ∃ j ∈ slotsRead h.stepper w type, t.atoiSlot j = .error outOfBounds) :
    dispatch env t type h = .error outOfBounds := by
  obtain ⟨j, hj, hfault⟩ := hread
  rw [dispatch_eq env ht]
  by_cases hfirst : ∃ j ∈ slotsOf h.stepper (standardMatch w), t.atoiSlot j = .error outOfBounds
  · rw [execMatch_eq_error hfirst]
  · have hok : ∀ j ∈ slotsOf h.stepper (standardMatch w), ∃ v, t.atoiSlot j = .ok v :=
      fun j hj => (atoiSlot_cases t j).resolve_left fun hf => hfirst ⟨j, hj, hf⟩
    obtain ⟨⟨h', returned⟩, hexec⟩ := exists_execMatch_eq_ok env hok
    rw [hexec]
    dsimp only
    by_cases hgo : returned = true ∨ type = 0
    · -- then nothing but the slots of the first chain is read
      rw [returned_iff hexec] at hgo
      rw [slotsRead, if_pos hgo, List.append_nil] at hj
      exact absurd ⟨j, hj, hfault⟩ hfirst
    · rw [if_neg hgo]
      rcases (mem_slotsRead_of_tcpMatch hexec hgo).mp hj with hj | hj
      · exact absurd ⟨j, hj, hfault⟩ hfirst
      · rw [execMatch_eq_error ⟨j, hj, hfault⟩]
        rfl

variable (env) in
/-- A message whose slots can be read runs. -/
theorem exists_dispatch_eq_ok (ht : t.rows = w :: rest)
    (hread : ∀ j ∈ slotsRead h.stepper w type, ∃ v, t.atoiSlot j = .ok v) :
    ∃ h', dispatch env t type h = .ok h' := by
  obtain ⟨⟨h', returned⟩, hexec⟩ :=
    exists_execMatch_eq_ok env (List.forall_mem_append.mp hread).1
  rw [dispatch_eq env ht, hexec]
  dsimp only
  split
  · exact ⟨_, rfl⟩
  next hgo =>
    obtain ⟨r, hr⟩ := exists_execMatch_eq_ok env (h := h') fun j hj =>
      hread j ((mem_slotsRead_of_tcpMatch hexec hgo).mpr (.inr hj))
    rw [hr]
    exact ⟨_, rfl⟩

end Dispatch

end Strand

import StrandFirmware.CommandIsolation
import StrandFirmware.Datagrams
import StrandFirmware.TcpReplies

/-!
# How many replies a message gets

Every branch of the TCP chain posts one reply, and of the first chain only `set_location` does.
What a message gets depends on both chains: `setMax`, `setNumber` and `update` return from the first
chain before the second is reached, so they are never answered, and `set_location` is answered from
the first chain, over UDP as well (`repliesOnce_iff`).
-/

namespace Strand

open CString MemoryFault

/-- The number of items offered to `xQueue_tcp_respond`. -/
def replies (effects : List Effect) : ℕ := effects.countP fun e => e.IsReply

/-- The number of replies that a branch posts. -/
def Branch.replyCount (b : Branch) : ℕ :=
  if b.bound.isSome ∨ b.word = "set_location" then 1 else 0

section Handling

variable (h : Handling) (env : Environment)

/-- One more effect. -/
@[simp] lemma replies_emit (e : Effect) :
    replies (h.emit e).effects = replies h.effects + if e.IsReply then 1 else 0 := by
  simp [replies, Handling.emit, List.countP_append]

@[simp] lemma replies_setPramamter (type value : ℤ) :
    replies (h.setPramamter type value).effects = replies h.effects := by
  simp [Handling.setPramamter, Handling.emit, replies, Effect.IsReply]

@[simp] lemma replies_saveParamters :
    replies (h.saveParamters env).effects = replies h.effects := by
  simp [Handling.saveParamters, Effect.IsReply]

@[simp] lemma replies_commandSetLocation (loc : Location) :
    replies (h.commandSetLocation env loc).effects = replies h.effects := by
  simp [Handling.commandSetLocation, Effect.IsReply]

@[simp] lemma replies_updateUdp : replies h.updateUdp.effects = replies h.effects := by
  simp [Handling.updateUdp, Effect.IsReply]

@[simp] lemma replies_commandMove (type move speed accel time : ℤ) :
    replies (h.commandMove type move speed accel time).effects = replies h.effects := by
  simp [Handling.commandMove, Effect.IsReply]

end Handling

/-- Each branch of the first chain posts its number of replies. -/
lemma replies_act_of_mem_standardBranches {b : Branch} (hb : b ∈ standardBranches)
    (env : Environment) (word : ℤ → ℤ) (h : Handling) :
    replies (b.act env word h).effects = replies h.effects + b.replyCount := by
  simp only [standardBranches, List.mem_cons, List.not_mem_nil, or_false] at hb
  rcases hb with rfl | rfl | rfl | rfl | rfl | rfl | rfl | rfl | rfl | rfl | rfl | rfl | rfl |
    rfl | rfl | rfl | rfl | rfl | rfl
  case inr.inr.inr.inr.inr.inr.inr.inl =>
    by_cases hnumber : h.stepper.number = 0
    · simp [stepperNumTranslateBranch, hnumber, Branch.replyCount]
    · simp [stepperNumTranslateBranch, hnumber, Branch.replyCount]
  all_goals simp [duplicateBranch, otaBranch, resetBranch, stopBranch, plainBranch, homeBranch,
    stepperMoveBranch, stepperTranslateBranch, moveBranch, strandTranslateBranch,
    stepperWaveBranch, stepperSineBranch, stepperNumSineBranch, stepperSineWaveBranch,
    setCurrentBranch, setMinBranch, setMaxBranch, setNumberBranch, setBranch, setLocationBranch,
    setLocationAct, updateBranch, Branch.replyCount, Effect.IsReply]

/-- Each branch of the second chain posts its number of replies. -/
lemma replies_act_of_mem_tcpBranches {b : Branch} (hb : b ∈ tcpBranches)
    (env : Environment) (word : ℤ → ℤ) (h : Handling) :
    replies (b.act env word h).effects = replies h.effects + b.replyCount := by
  simp only [tcpBranches, List.mem_cons, List.not_mem_nil, or_false] at hb
  rcases hb with rfl | rfl | rfl | rfl | rfl | rfl | rfl
  all_goals simp [getMacBranch, replyBranch, tcpSetLocationBranch, setLocationAct, tcpSetMinBranch,
    tcpSetMaxBranch, tcpSetNumberBranch, tcpSetBranch, tcpUpdateBranch, getLocationBranch,
    Branch.replyCount, Effect.IsReply]

/-! ## The word in slot 0 -/

/-- The word that a message puts into slot 0, if it puts any there. -/
def firstWord (stack : Stack) (multicastId : BitVec 64) (text : List Byte) (type : ℤ) :
    Option (List Byte) :=
  if type = 0 then
    match wordsOf space text with
    | idWord :: w :: _ =>
      if BitVec.ofInt 64 (idNumber stack idWord) = multicastId then some (ascii "duplicate")
      else some w
    | _ => none
  else (wordsOf space text).head?

section FirstWord

variable {stack : Stack} {multicastId id : BitVec 64} {a : List Byte} {rows : List Row}

/-- The first slot of some words. -/
lemma head?_of_rowsFrom {ws : List (List Byte)}
    (h : (rowsFrom 0 ws >>= fun rows => .ok (rows, id)) = .ok (rows, multicastId)) :
    rows.head? = ws.head?.map rowOf := by
  unfold rowsFrom at h
  split at h
  · obtain ⟨rfl, -⟩ := Prod.mk.inj (Except.ok.inj h)
    exact List.head?_map
  · simp [bind, Except.bind] at h

/-- The word loop does not end in bytes without a zero. -/
lemma wordRows_unterminated {buf : List Byte} {p q : ℕ} (hbuf : 0 ∉ buf.drop q) (i : ℕ) :
    wordRows i (some p) buf (some q) ≠ .ok rows := by
  intro h
  -- the induction follows the slots that are still free
  induction hn : COMMAND_ITEMS - i generalizing i p q buf rows with
  | zero =>
    have hi : ¬ i < COMMAND_ITEMS := by omega
    rw [wordRows] at h
    simp [hi] at h
  | succ n ih =>
    have hi : i < COMMAND_ITEMS := by omega
    rw [wordRows] at h
    simp only [hi, dite_true] at h
    obtain ⟨row, -, h⟩ := bind_eq_ok_iff.mp h
    obtain ⟨⟨token, buf', next⟩, hnext, h⟩ := bind_eq_ok_iff.mp h
    obtain ⟨hsome, q', rfl, hbuf'⟩ := strtok_unterminated hbuf (within_eq_ok_iff.mp hnext)
    obtain ⟨p', rfl⟩ := Option.isSome_iff_exists.mp hsome
    obtain ⟨rows', hrows', -⟩ := bind_eq_ok_iff.mp h
    exact ih hbuf' (i + 1) hrows' (by omega)

/-- A message without an id that has no terminator is not parsed to its end. -/
lemma messageRows_unterminated_of_ne {type : ℤ} (htype : type ≠ 0) (ha : 0 ∉ a) :
    messageRows stack multicastId a type ≠ .ok (rows, id) := by
  intro h
  unfold messageRows at h
  obtain ⟨⟨token, b, next⟩, htok, h⟩ := bind_eq_ok_iff.mp h
  obtain ⟨hsome, q, rfl, hb⟩ := strtok_unterminated (p := 0) ha (within_eq_ok_iff.mp htok)
  obtain ⟨p, rfl⟩ := Option.isSome_iff_exists.mp hsome
  simp only [if_neg htype] at h
  obtain ⟨rows', hrows', -⟩ := bind_eq_ok_iff.mp h
  exact wordRows_unterminated hb 0 hrows'

/-- A repeat writes `"duplicate"` into slot 0. -/
lemma head?_of_wordRows_marked {b : List Byte} {q : ℕ} {next : Option ℕ} (hfit : q + 10 ≤ b.length)
    (h : wordRows 0 (some q) (marked b q) next = .ok rows) :
    rows.head? = some (rowOf (ascii "duplicate")) := by
  have hat : (marked b q).drop q = ascii "duplicate" ++ 0 :: b.drop (q + 10) :=
    drop_marked hfit (Nat.zero_le 9)
  rw [wordRows_word isWord_duplicate.1.2.2 hat, if_pos (by decide)] at h
  obtain ⟨rows', -, h⟩ := bind_eq_ok_iff.mp h
  obtain rfl := Except.ok.inj h
  rfl

/-- A datagram without terminator is parsed to its end only when it is a repeat. -/
lemma head?_of_unterminated (ha : 0 ∉ a) (h : messageRows stack multicastId a 0 = .ok (rows, id)) :
    rows.head? = (firstWord stack multicastId a 0).map rowOf := by
  have hspace : space ≠ 0 := by decide
  rcases exists_shape space ha with ⟨n, rfl⟩ | ⟨n, w, hw, rfl | ⟨r, rfl⟩⟩
  · have hstop : strtok space (List.replicate n space) 0 = .error outOfBounds :=
      strtok_error (n := n) (.inl rfl) (by simp)
    simp [messageRows, hstop, within, Except.mapError, bind, Except.bind] at h
  · have hstop : strtok space (List.replicate n space ++ w) 0 = .error outOfBounds :=
      strtok_error (n := n) (.inr hw) rfl
    simp [messageRows, hstop, within, Except.mapError, bind, Except.bind] at h
  · have hr : 0 ∉ r := fun h => ha (by simp [h])
    obtain ⟨b, q, -, -, hafter, hrows⟩ := messageRows_next hw rfl stack multicastId
    rw [hrows] at h
    obtain ⟨x, hx, h⟩ := bind_eq_ok_iff.mp h
    rcases exists_shape space hr with ⟨m, rfl⟩ | ⟨m, v, hv, rfl | ⟨rest, rfl⟩⟩
    · have hstop := strtok_error (n := m) (.inl rfl) (hafter.trans (List.append_nil _).symm)
      rw [hstop] at hx
      simp [within, Except.mapError] at hx
    · have hstop := strtok_error (.inr hv) hafter
      rw [hstop] at hx
      simp [within, Except.mapError] at hx
    · obtain ⟨htok, -, hbehind⟩ := strtok_next hspace hv hafter
      have hrest : 0 ∉ rest := fun h => hr (by simp [h])
      rw [htok] at hx
      obtain rfl := Except.ok.inj hx
      unfold firstWord
      rw [if_pos rfl, wordsOf_replicate_append, wordsOf_word_append hw, wordsOf_replicate_append,
        wordsOf_word_append hv]
      by_cases hid : BitVec.ofInt 64 (idNumber stack w) = multicastId
      · rw [afterId_repeat hid] at h
        split at h
        next hfit =>
          obtain ⟨rows', hrows', h⟩ := bind_eq_ok_iff.mp h
          obtain ⟨rfl, -⟩ := Prod.mk.inj (Except.ok.inj h)
          simp [head?_of_wordRows_marked hfit hrows', hid]
        next => simp at h
      · rw [afterId_fresh hid] at h
        obtain ⟨rows', hrows', -⟩ := bind_eq_ok_iff.mp h
        exact absurd hrows' (wordRows_unterminated (by rw [hbehind]; exact hrest) 0)

/-- **The word that a message puts into slot 0.** -/
theorem head?_of_messageRows {type : ℤ}
    (h : messageRows stack multicastId a type = .ok (rows, id)) :
    rows.head? = (firstWord stack multicastId (textOf a) type).map rowOf := by
  by_cases hzero : 0 ∈ a
  · obtain ⟨htext, pad, hpad⟩ := eq_textOf_append hzero
    by_cases htype : type = 0
    · subst htype
      have hread := messageRows_datagram htext pad stack multicastId
      rw [← hpad, h, datagramRows] at hread
      unfold firstWord
      rw [if_pos rfl]
      rcases hwords : wordsOf space (textOf a) with _ | ⟨idWord, _ | ⟨w, ws⟩⟩
      · simp [hwords] at hread
      · simp only [hwords] at hread
        split at hread
        · simp at hread
        · rw [head?_of_rowsFrom hread.symm]
          rfl
      · simp only [hwords] at hread
        split at hread
        next hid =>
          split at hread
          · simp only [head?_of_rowsFrom hread.symm, if_pos hid]
            rfl
          · simp at hread
        next hid =>
          simp only [head?_of_rowsFrom hread.symm, if_neg hid]
          rfl
    · have hread := messageRows_text htype htext pad stack multicastId
      rw [← hpad, h] at hread
      rw [head?_of_rowsFrom hread.symm, firstWord, if_neg htype]
  · have htext : textOf a = a := by
      have h := textOf_append_eq a []
      rw [if_neg hzero, List.append_nil] at h
      exact h.trans (List.append_nil _)
    rw [htext]
    by_cases htype : type = 0
    · subst htype
      exact head?_of_unterminated hzero h
    · exact absurd h (messageRows_unterminated_of_ne htype hzero)

end FirstWord

/-- The slot 0 that the comparisons of a message find: the word of the message, or what an earlier
message left there. -/
def NetState.firstSlot (s : NetState) (stack : Stack) (text : List Byte) (type : ℤ) : Option Row :=
  ((firstWord stack s.multicastId text type).map rowOf).or s.commandLine.rows.head?

/-- What a message that was parsed finds in slot 0. -/
lemma head?_of_getCommandLine {s : NetState} {stack : Stack} {a : List Byte} {type : ℤ} {n : ℕ}
    {t : CommandLine} {id : BitVec 64}
    (h : getCommandLine stack s.commandLine s.multicastId a type = .ok (n, t, id)) :
    t.rows.head? = s.firstSlot stack (textOf a) type := by
  have hle := getCommandLine_le h
  rcases hread : messageRows stack s.multicastId a type with e | ⟨rows, id'⟩
  · rw [getCommandLine_eq, hread] at h
    simp [Except.mapError, bind, Except.bind] at h
  · rw [getCommandLine_of_rows hread] at h
    obtain ⟨rfl, htable⟩ := Prod.mk.inj (Except.ok.inj h)
    obtain ⟨rfl, -⟩ := Prod.mk.inj htable
    rw [NetState.firstSlot, ← head?_of_messageRows hread, rows_fill (by simpa using hle)]
    rcases rows with _ | ⟨row, rows⟩
    · simp
    · simp

/-! ## The replies of the two chains -/

/-- The number of replies that the branch found posts. -/
def matchReplies (b : Option Branch) : ℕ := (b.map Branch.replyCount).getD 0

/-- The number of replies to the word in slot 0, over TCP. -/
def tcpReplies (w : Row) : ℕ :=
  matchReplies (standardMatch w) +
    if (standardMatch w).any (fun b => b.returns) then 0 else matchReplies (tcpMatch w)

section Chains

variable {env : Environment} {t : CommandLine} {w : Row} {rest : List Row} {type : ℤ}
  {h h' : Handling}

/-- The branch found posts its number of replies. -/
lemma replies_execMatch {b : Option Branch} {returned : Bool}
    (hb : ∀ c ∈ b, c ∈ standardBranches ∨ c ∈ tcpBranches)
    (hexec : execMatch env t b h = .ok (h', returned)) :
    replies h'.effects = replies h.effects + matchReplies b := by
  rcases execMatch_cases hexec with ⟨rfl, rfl⟩ | ⟨c, hc, word, -, rfl⟩
  · rfl
  · obtain rfl := Option.mem_def.mp hc
    rcases hb c rfl with hb | hb
    · exact replies_act_of_mem_standardBranches hb env word h
    · exact replies_act_of_mem_tcpBranches hb env word h

/-- The replies of a message that was handled. -/
lemma replies_dispatch (ht : t.rows = w :: rest) (hok : dispatch env t type h = .ok h') :
    replies h'.effects = replies h.effects +
      if type = 0 then matchReplies (standardMatch w) else tcpReplies w := by
  have hstandard : ∀ c ∈ standardMatch w, c ∈ standardBranches ∨ c ∈ tcpBranches :=
    fun c hc => .inl (List.mem_of_find?_eq_some hc)
  have htcp : ∀ c ∈ tcpMatch w, c ∈ standardBranches ∨ c ∈ tcpBranches :=
    fun c hc => .inr (List.mem_of_find?_eq_some hc)
  obtain ⟨h₁, returned, hexec, hrest⟩ := dispatch_cases ht hok
  have hfirst := replies_execMatch hstandard hexec
  have hreturned : returned = (standardMatch w).any fun b => b.returns := by
    rw [Bool.eq_iff_iff, returned_iff hexec, Option.any_eq_true]
    rfl
  unfold tcpReplies
  rw [← hreturned]
  rcases hrest with ⟨hend, rfl⟩ | ⟨hgo, returned', hexec'⟩
  · rw [hfirst]
    rcases hend with hend | hend
    · simp [hend]
    · simp [hend]
  · obtain ⟨hreturned, htype⟩ := not_or.mp hgo
    rw [replies_execMatch htcp hexec', hfirst, if_neg htype, if_neg hreturned, Nat.add_assoc]

/-- Only `set_location` is answered by the first chain. -/
lemma matchReplies_standardMatch (w : Row) :
    matchReplies (standardMatch w) = if textOf w.toList = ascii "set_location" then 1 else 0 := by
  have hlen : (ascii "set_location").length < w.toList.length := by
    rw [w.toList_length]
    decide
  have haccepts : setLocationBranch.accepts w = true ↔ textOf w.toList = ascii "set_location" := by
    rw [← strcmpEqual_eq_true_iff (by decide) hlen]
    exact decide_eq_true_iff
  split
  next htext =>
    have hmatch : standardMatch w = some setLocationBranch :=
      find?_eq_some_of_exclusive exclusive_standardBranches (by simp [standardBranches])
        (haccepts.mpr htext)
    rw [hmatch]
    rfl
  next htext =>
    rcases hmatch : standardMatch w with _ | b
    · rfl
    · have hb := List.mem_of_find?_eq_some hmatch
      have hacc := List.find?_some hmatch
      obtain ⟨hbound, hshort, hzero⟩ := bound_of_mem_standardBranches b hb
      have hne : b.word ≠ "set_location" := by
        intro hword
        have hacc' : strcmpEqual w.toList (ascii b.word) = .ok true := by
          simpa [Branch.accepts, hbound] using hacc
        rw [hword, strcmpEqual_eq_true_iff (by decide) hlen] at hacc'
        exact htext hacc'
      simp [matchReplies, Branch.replyCount, hbound, hne]

end Chains

/-- The words of the second chain that the first chain handles and returns. -/
def unansweredWords : List String := ["setMax", "setNumber", "update"]

/-- The second chain has a branch for each of them. -/
lemma unansweredWords_subset : unansweredWords ⊆ tcpBranches.map fun b => b.word := by decide

/-- The replies over TCP to the words of the second chain. -/
lemma tcpReplies_of_mem : ∀ word ∈ tcpBranches.map fun b => b.word,
    tcpReplies (rowOf (ascii word)) = if word ∈ unansweredWords then 0 else 1 := by
  decide

/-- A message whose first word is answered by the TCP chain gets one reply over TCP, and no message
gets one over UDP. -/
def RepliesOnce (r : Receiver) (text : List Byte) (effects : List Effect) : Prop :=
  (r.commandType ≠ 0 → ∀ word ∈ tcpBranches.map fun b => b.word,
    (wordsOf space text).head? = some (ascii word) → replies effects = 1) ∧
  (r.commandType = 0 → replies effects = 0)

/-- The replies of a message follow from the word in slot 0. -/
lemma replies_effects {env : Environment} {s : NetState} {r : Receiver} {m : Message}
    {effects : List Effect} (h : s.effects env r m = .ok effects) :
    ∃ w, s.firstSlot env.stack (textOf m.toList) r.commandType = some w ∧
      replies effects = if r.commandType = 0 then matchReplies (standardMatch w)
        else tcpReplies w := by
  rcases hline : getCommandLine env.stack s.commandLine s.multicastId m.toList r.commandType with
    e | ⟨n, t, id⟩
  · rw [NetState.effects_of_not_parsed hline] at h
    simp at h
  · obtain ⟨w, rest, ht⟩ := t.exists_rows_eq_cons
    have hslot := head?_of_getCommandLine hline
    rw [ht, List.head?_cons] at hslot
    rw [NetState.effects_of_parsed hline] at h
    rcases hd : dispatch env t r.commandType ⟨s.stepper, s.location, []⟩ with e | h'
    · simp [hd, Except.map] at h
    · obtain rfl : h'.effects = effects := by simpa [hd, Except.map] using h
      refine ⟨w, hslot.symm, ?_⟩
      rw [replies_dispatch ht hd]
      simp [replies]

/-- **Which messages get the replies they should.**  Over TCP every word of the second chain is
answered once, but for the three that return from the first chain; over UDP every message stays
without a reply, but for `set_location`. -/
theorem repliesOnce_iff {env : Environment} {s : NetState} {r : Receiver} {m : Message}
    {effects : List Effect} (h : s.effects env r m = .ok effects) :
    RepliesOnce r (textOf m.toList) effects ↔
      (r.commandType ≠ 0 → ∀ word ∈ unansweredWords,
        (wordsOf space (textOf m.toList)).head? ≠ some (ascii word)) ∧
      (r.commandType = 0 → ∀ w ∈ s.firstSlot env.stack (textOf m.toList) r.commandType,
        textOf w.toList ≠ ascii "set_location") := by
  obtain ⟨w, hslot, hreplies⟩ := replies_effects h
  unfold RepliesOnce
  refine and_congr ?_ ?_
  · refine imp_congr_right fun htype => ?_
    rw [hreplies, if_neg htype]
    have hword : ∀ word, (wordsOf space (textOf m.toList)).head? = some (ascii word) →
        w = rowOf (ascii word) := by
      intro word hhead
      rw [NetState.firstSlot, firstWord, if_neg htype, hhead] at hslot
      exact (Option.some.inj hslot).symm
    constructor
    · intro hall word hmem hhead
      have hanswered := unansweredWords_subset hmem
      have hone := hall word hanswered hhead
      rw [hword word hhead, tcpReplies_of_mem word hanswered, if_pos hmem] at hone
      exact absurd hone (by decide)
    · intro hall word hanswered hhead
      have hnot : word ∉ unansweredWords := fun hmem => hall word hmem hhead
      rw [hword word hhead, tcpReplies_of_mem word hanswered, if_neg hnot]
  · refine imp_congr_right fun htype => ?_
    rw [hreplies, if_pos htype, matchReplies_standardMatch, hslot]
    simp

/-- `setMin` is answered over TCP. -/
theorem repliesOnce_setMin : ∃ effects,
    NetState.fresh.effects .faithful .tcp (.ofText "setMin 5") = .ok effects ∧
      RepliesOnce .tcp (textOf (Message.ofText "setMin 5").toList) effects := by
  have hok : (NetState.fresh.effects .faithful .tcp (.ofText "setMin 5")).toOption.isSome =
      true := by
    decide +kernel
  have hhead : (wordsOf space (textOf (Message.ofText "setMin 5").toList)).head? =
      some (ascii "setMin") := by decide +kernel
  rcases heffects : NetState.fresh.effects .faithful .tcp (.ofText "setMin 5") with e | effects
  · simp [heffects, Except.toOption] at hok
  · refine ⟨effects, rfl, (repliesOnce_iff heffects).mpr ⟨fun _ => ?_, fun h => ?_⟩⟩
    · rw [hhead]
      decide
    · exact absurd h (by decide)

/-- **A request without a reply, and a reply without a request**: `setMax` over TCP is carried out
and not answered, and `set_location` over UDP posts a reply that nobody asked for. -/
theorem not_repliesOnce_setMax :
    NetState.fresh.effects .faithful .tcp (.ofText "setMax 5") =
        .ok [.setPramamter 3 5, .saveStepper ⟨0, 0, 5, 0, 0⟩, .updateUdp ⟨0, 0, 5, 0, 0⟩] ∧
      ¬ RepliesOnce .tcp (textOf (Message.ofText "setMax 5").toList)
        [.setPramamter 3 5, .saveStepper ⟨0, 0, 5, 0, 0⟩, .updateUdp ⟨0, 0, 5, 0, 0⟩] ∧
      NetState.fresh.effects .faithful .multicast (.ofText "2 set_location 1 2 3") =
        .ok [.saveLocation ⟨1, 2, 3⟩, .tcpRespond "OK"] ∧
      ¬ RepliesOnce .multicast (textOf (Message.ofText "2 set_location 1 2 3").toList)
        [.saveLocation ⟨1, 2, 3⟩, .tcpRespond "OK"] := by
  refine ⟨by decide +kernel, ?_, by decide +kernel, ?_⟩
  · rintro ⟨htcp, -⟩
    exact absurd (htcp (by decide) "setMax" (by decide) (by decide +kernel)) (by decide)
  · rintro ⟨-, hudp⟩
    exact absurd (hudp rfl) (by decide)

end Strand

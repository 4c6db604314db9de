import EmbedUI.Proofs.Cli.Deadline

/-!
# Files of messages, taken apart

A file of messages is carried out line by line, and a line does two things that have nothing to do
with each other: its message, if it has one, is received, and it is counted. So a file that is cut
between two lines comes to the same in two runs as in one, and lines with nothing to carry out can
be left out without anyone but the tally noticing.

## The architecture

* **`Text.lines_append`**, **`Text.lines_intercalate`**: texts and their lines.
* **`Dispatch.feed`**: what lines do to a host; **`Dispatch.total`**: what they are counted as.
  `Dispatch.run_eq`: a run is nothing but the two.
* **`Dispatch.run_append`**: a text that is cut between two lines.
* **`Dispatch.Live`**: a line with something to carry out. `Dispatch.feed_filter_live`: the others do
  nothing to a host, so they can be left out (`Dispatch.prune`).
-/

namespace EmbedUI

namespace Text

theorem lines_append (as bs : List Char) : lines (as ++ '\n' :: bs) = lines as ++ lines bs := by
  simp only [lines_eq_splitOn]
  exact List.splitOnP_append_cons as bs (beq_self_eq_true _)

theorem lines_intercalate {ls : List (List Char)} (h : ∀ l ∈ ls, '\n' ∉ l) (hne : ls ≠ []) :
    lines (['\n'].intercalate ls) = ls := by
  rw [lines_eq_splitOn]
  exact List.splitOn_intercalate '\n' h hne

theorem newline_notMem_line {cs l : List Char} (h : l ∈ lines cs) : '\n' ∉ l := by
  induction cs generalizing l with
  | nil =>
    rw [List.mem_singleton.mp h]
    exact List.not_mem_nil
  | cons c cs ih =>
    rw [lines] at h
    split at h
    next =>
      rcases List.mem_cons.mp h with rfl | h
      · exact List.not_mem_nil
      · exact ih h
    next hc =>
      -- the first line grows by a character that is no line feed
      split at h
      next =>
        rw [List.mem_singleton.mp h, List.mem_singleton]
        exact Ne.symm hc
      next first rest hlines =>
        rcases List.mem_cons.mp h with rfl | h
        · have hfirst : '\n' ∉ first := ih (hlines ▸ List.mem_cons_self ..)
          exact fun hmem => (List.mem_cons.mp hmem).elim (Ne.symm hc) hfirst
        · exact ih (hlines ▸ List.mem_cons_of_mem _ h)

end Text

namespace Host

/-! ## Counting -/

namespace Tally

instance : Add Tally := ⟨fun t u => ⟨t.received + u.received, t.routed + u.routed⟩⟩

theorem add_assoc (t u v : Tally) : t + u + v = t + (u + v) :=
  congrArg₂ Tally.mk (Nat.add_assoc ..) (Nat.add_assoc ..)

theorem zero_add (t : Tally) : zero + t = t :=
  congrArg₂ Tally.mk (Nat.zero_add _) (Nat.zero_add _)

theorem dropped_add {t u : Tally} (ht : t.routed ≤ t.received) (hu : u.routed ≤ u.received) :
    (t + u).dropped = t.dropped + u.dropped := by
  show t.received + u.received - (t.routed + u.routed) =
    t.received - t.routed + (u.received - u.routed)
  omega

end Tally

namespace Dispatch

/-- The line holds a message that the host accepts. -/
def Live (cs : List Char) : Prop := ((message? cs).bind Envelope.ofMessage?).isSome

instance : DecidablePred Live := fun _ => inferInstanceAs (Decidable (_ = true))

/-- The line holds something, be it a message or not. -/
def Counts (cs : List Char) : Prop := Text.trimmed cs ≠ []

instance : DecidablePred Counts := fun _ => inferInstanceAs (Decidable (_ ≠ _))

theorem Live.counts {cs : List Char} (h : Live cs) : Counts cs := by
  intro hblank
  unfold Live message? at h
  simp [hblank] at h

/-- What lines are counted as. -/
def total (ls : List (List Char)) : Tally := ⟨ls.countP Counts, ls.countP Live⟩

theorem total_append (ls ls' : List (List Char)) : total (ls ++ ls') = total ls + total ls' :=
  congrArg₂ Tally.mk List.countP_append List.countP_append

theorem routed_le_received (ls : List (List Char)) : (total ls).routed ≤ (total ls).received :=
  List.countP_mono_left fun cs _ h => by simpa using Live.counts (by simpa using h)

theorem count_eq (t : Tally) (cs : List Char) : count t cs = t + total [cs] := by
  have hreceived : (if (Text.trimmed cs).isEmpty then 0 else 1) = if Counts cs then 1 else 0 := by
    by_cases hblank : Text.trimmed cs = [] <;> simp [Counts, hblank]
  show Tally.mk (t.received + _) (t.routed + _) = Tally.mk (t.received + _) (t.routed + _)
  simp only [total, List.countP_singleton, decide_eq_true_eq, hreceived]
  rfl

theorem foldl_count (t : Tally) (ls : List (List Char)) : ls.foldl count t = t + total ls := by
  induction ls generalizing t with
  | nil => rfl
  | cons cs rest ih =>
    rw [List.foldl_cons, ih, count_eq, Tally.add_assoc, ← total_append]
    rfl

/-! ## Carrying out -/

def feedLine (now : Moment) (r : Router) (cs : List Char) : Option Router :=
  match message? cs with
  | none => some r
  | some message => (r.receive now message).map Prod.fst

def feed (now : Moment) (r : Router) (ls : List (List Char)) : Option Router :=
  ls.foldlM (feedLine now) r

theorem feed_cons (now : Moment) (r : Router) (cs : List Char) (rest : List (List Char)) :
    feed now r (cs :: rest) = (feedLine now r cs).bind fun r => feed now r rest := rfl

theorem feed_append (now : Moment) (r : Router) (ls ls' : List (List Char)) :
    feed now r (ls ++ ls') = (feed now r ls).bind fun r => feed now r ls' :=
  List.foldlM_append

/-- A line is received by the host and counted, and neither looks at the other. -/
theorem line_eq (d : Dispatch) (now : Moment) (cs : List Char) :
    d.line now cs = (feedLine now d.router cs).map fun r => ⟨r, count d.tally cs⟩ := by
  unfold feedLine
  rcases line_cases d now cs with ⟨hnone, hline⟩ | ⟨message, hsome, htext, hline⟩
  · rw [hline, hnone]
    rfl
  · rw [hline, hsome]
    dsimp only
    cases hreceive : d.router.receive now message with
    | none => rfl
    | some received =>
      obtain ⟨router, answer⟩ := received
      obtain ⟨-, rfl⟩ := Router.ttl_receive hreceive
      simp [count, hsome, htext]

theorem linesAll_eq (d : Dispatch) (now : Moment) (ls : List (List Char)) :
    d.linesAll now ls = (feed now d.router ls).map fun r => ⟨r, ls.foldl count d.tally⟩ := by
  induction ls generalizing d with
  | nil => rfl
  | cons cs rest ih =>
    rw [linesAll, line_eq, feed_cons]
    cases feedLine now d.router cs with
    | none => rfl
    | some r => exact ih ⟨r, count d.tally cs⟩

/-- **A run:** what the lines do to the host, and what they are counted as. -/
theorem run_eq (r : Router) (now : Moment) (text : String) :
    run r now text = (feed now r (Text.lines text.toList)).map fun r =>
      ⟨r, total (Text.lines text.toList)⟩ := by
  rw [run, linesAll_eq, foldl_count, Tally.zero_add]

/-! ## Two texts -/

/-- The lines of a text that ends between two lines, and of a text that comes after it. -/
theorem lines_cut {text : String} (h : text = "" ∨ ∃ before, text = before ++ "\n")
    (rest : String) :
    ∃ ls, Text.lines text.toList = ls ++ [[]] ∧
      Text.lines (text ++ rest).toList = ls ++ Text.lines rest.toList := by
  rcases h with rfl | ⟨before, rfl⟩
  · exact ⟨[], rfl, by simp⟩
  · refine ⟨Text.lines before.toList, ?_, ?_⟩
    · have hend : (before ++ "\n").toList = before.toList ++ '\n' :: [] := by simp
      rw [hend, Text.lines_append]
      rfl
    · have hmiddle : (before ++ "\n" ++ rest).toList = before.toList ++ '\n' :: rest.toList := by
        simp
      rw [hmiddle, Text.lines_append]

/-- **The cut.** A text that is cut between two lines comes to the same in two runs. -/
theorem run_append {text : String} (h : text = "" ∨ ∃ before, text = before ++ "\n")
    (r : Router) (now : Moment) (rest : String) :
    run r now (text ++ rest) = (run r now text).bind fun d =>
      (run d.router now rest).map fun d' => ⟨d'.router, d.tally + d'.tally⟩ := by
  obtain ⟨ls, htext, hboth⟩ := lines_cut h rest
  simp only [run_eq, htext, hboth, feed_append, total_append]
  cases feed now r ls with
  | none => rfl
  | some r₁ =>
    -- the blank line at the end of the first text is neither carried out nor counted
    show (feed now r₁ _).map _ = ((feed now r₁ _).map _).map _
    rw [Option.map_map]
    rfl

/-! ## Lines with nothing to carry out -/

theorem feedLine_of_not_live {cs : List Char} (h : ¬Live cs) (now : Moment) (r : Router) :
    feedLine now r cs = some r := by
  unfold feedLine Live at *
  cases hmessage : message? cs with
  | none => rfl
  | some message =>
    rw [hmessage, Option.bind_some, Option.not_isSome_iff_eq_none] at h
    simp [Router.receive_dropped h]

theorem feed_filter_live (now : Moment) (r : Router) (ls : List (List Char)) :
    feed now r (ls.filter fun cs => Live cs) = feed now r ls := by
  induction ls generalizing r with
  | nil => rfl
  | cons cs rest ih =>
    by_cases hlive : Live cs
    · rw [List.filter_cons_of_pos (by simpa using hlive), feed_cons, feed_cons]
      exact congrArg _ (funext ih)
    · rw [List.filter_cons_of_neg (by simpa using hlive), ih, feed_cons,
        feedLine_of_not_live hlive]
      rfl

/-- Texts with the same lines to carry out do the same, and as many of their messages are accepted. -/
theorem run_congr {text text' : String}
    (h : (Text.lines text.toList).filter (fun cs => Live cs) =
      (Text.lines text'.toList).filter fun cs => Live cs) (r : Router) (now : Moment) :
    (run r now text).map (fun d => (d.router, d.tally.routed)) =
      (run r now text').map fun d => (d.router, d.tally.routed) := by
  have hrouted : (total (Text.lines text.toList)).routed =
      (total (Text.lines text'.toList)).routed := by
    simp only [total, List.countP_eq_length_filter, h]
  rw [run_eq, run_eq, Option.map_map, Option.map_map, ← feed_filter_live, h, feed_filter_live]
  simp only [Function.comp_def, hrouted]

/-- A text without the lines that are not kept. -/
def prune (keep : List Char → Bool) (text : String) : String :=
  String.ofList (['\n'].intercalate ((Text.lines text.toList).filter keep))

theorem lines_prune (keep : List Char → Bool) (text : String) :
    Text.lines (prune keep text).toList = (Text.lines text.toList).filter keep ∨
      Text.lines (prune keep text).toList = [[]] ∧ (Text.lines text.toList).filter keep = [] := by
  rw [prune, String.toList_ofList]
  by_cases hkept : (Text.lines text.toList).filter keep = []
  · -- a text without lines is the empty text, which has a blank one
    rw [hkept]
    exact .inr ⟨rfl, rfl⟩
  · exact .inl (Text.lines_intercalate
      (fun l hl => Text.newline_notMem_line (List.mem_of_mem_filter hl)) hkept)

theorem filter_live_prune {keep : List Char → Bool} (h : ∀ cs, Live cs → keep cs = true)
    (text : String) :
    (Text.lines (prune keep text).toList).filter (fun cs => Live cs) =
      (Text.lines text.toList).filter fun cs => Live cs := by
  have hkeep : ((Text.lines text.toList).filter keep).filter (fun cs => Live cs) =
      (Text.lines text.toList).filter fun cs => Live cs := by
    rw [List.filter_filter]
    exact List.filter_congr fun cs _ => by
      by_cases hlive : Live cs <;> simp [hlive, h cs]
  rcases lines_prune keep text with hlines | ⟨hlines, hnone⟩
  · rw [hlines, hkeep]
  · rw [hlines, ← hkeep, hnone]
    rfl

/-- When nothing but lines to carry out is kept, nothing is dropped. -/
theorem dropped_prune_live (text : String) :
    (total (Text.lines (prune (fun cs => Live cs) text).toList)).dropped = 0 := by
  rcases lines_prune (fun cs => Live cs) text with hlines | ⟨hlines, -⟩
  · rw [hlines]
    have hall : ((Text.lines text.toList).filter fun cs => Live cs).countP (fun cs => Live cs) =
        ((Text.lines text.toList).filter fun cs => Live cs).length :=
      List.countP_eq_length.mpr fun cs hcs => (List.mem_filter.mp hcs).2
    refine Nat.sub_eq_zero_of_le ?_
    rw [total, hall]
    exact List.countP_le_length
  · rw [hlines]
    rfl

/-! ## The main statement -/

/-- The account that is given of a text. -/
structure Accounts (text : String) (d : Dispatch) : Prop where
  received : d.tally.received =
    ((Text.lines text.toList).filter fun cs => Text.trimmed cs ≠ []).length
  routed : d.tally.routed = ((Text.lines text.toList).filter fun cs => Live cs).length
  /-- Nothing is subtracted from less. -/
  bounded : d.tally.routed ≤ d.tally.received
  balance : d.tally.received = d.tally.routed + d.tally.dropped
  reported : ∀ now, (d.report now).get? "received" = some (Json.ofCount d.tally.received) ∧
    (d.report now).get? "routed" = some (Json.ofCount d.tally.routed) ∧
    (d.report now).get? "dropped" = some (Json.ofCount d.tally.dropped)

theorem accounts_run {r : Router} {now : Moment} {text : String} {d : Dispatch}
    (h : run r now text = some d) : Accounts text d := by
  rw [run_eq] at h
  obtain ⟨r', -, rfl⟩ := Option.map_eq_some_iff.mp h
  have hbounded := routed_le_received (Text.lines text.toList)
  constructor
  case received => exact List.countP_eq_length_filter
  case routed => exact List.countP_eq_length_filter
  case bounded => exact hbounded
  case balance => exact (Nat.add_sub_cancel' hbounded).symm
  case reported => exact fun now => ⟨rfl, rfl, rfl⟩

/-- **Files of messages, taken apart.** Whatever the host holds and whatever the texts are, as long
as the clock does not move. A text that is cut between two lines comes to the same in two runs as in
one, and everything that is counted adds up; every run gives its account. Only the lines with
something to carry out matter to the host and to what is routed: lines without can be taken out,
some or all of them. And nothing in a text stops a run when the clock can hold the deadline of a
notice. -/
theorem run_composes (r : Router) (now : Moment) :
    (∀ text rest, (text = "" ∨ ∃ before, text = before ++ "\n") →
      run r now (text ++ rest) = ((run r now text).bind fun d =>
        (run d.router now rest).map fun d' => ⟨d'.router, d.tally + d'.tally⟩) ∧
      ∀ d d', run r now text = some d → run d.router now rest = some d' →
        (d.tally + d'.tally).dropped = d.tally.dropped + d'.tally.dropped) ∧
    (∀ text d, run r now text = some d → Accounts text d) ∧
    (∀ keep text, (∀ cs, Live cs → keep cs = true) →
      (run r now (prune keep text)).map (fun d => (d.router, d.tally.routed)) =
        (run r now text).map fun d => (d.router, d.tally.routed)) ∧
    (∀ text d, run r now (prune (fun cs => Live cs) text) = some d → d.tally.dropped = 0) ∧
    (now.instant + r.notices.ttl < endOfTime → ∀ text, (run r now text).isSome) := by
  refine ⟨fun text rest hcut => ⟨run_append hcut r now rest, fun d d' hd hd' => ?_⟩,
    fun text d => accounts_run, fun keep text hkeep => ?_, fun text d hd => ?_,
    fun hfits text => ?_⟩
  · exact Tally.dropped_add (accounts_run hd).bounded (accounts_run hd').bounded
  · exact run_congr (filter_live_prune hkeep text) r now
  · rw [run_eq] at hd
    obtain ⟨r', -, rfl⟩ := Option.map_eq_some_iff.mp hd
    exact dropped_prune_live text
  · have hstart : Counted r.notices.ttl .zero ⟨r, .zero⟩ := ⟨rfl, rfl⟩
    exact (linesAll_isSome_iff hstart now _).mpr fun _ => hfits

/-- A notice with a carriage return behind it, a blank line, a line that is not JSON, and a message
that the host does not accept. -/
def noticeFile : String :=
  "\x7b\"type\":\"notify\",\"payload\":\x7b\"message\":\"hi\"\x7d\x7d\r\n \t\nnot json\n[1]\n"

/-- A form, without a line feed behind it. -/
def formFile : String := "\x7b\"type\":\"form-submit\",\"payload\":\x7b\"formId\":\"a\"\x7d\x7d"

/-- Both files in one run, the first one on its own and pruned, and the other one after it. -/
theorem run_composes_noticeThenForm :
    ∃ d d' pruned, run (.new ⟨5, 1⟩) ⟨0, ""⟩ noticeFile = some d ∧
      run d.router ⟨0, ""⟩ formFile = some d' ∧
      run (.new ⟨5, 1⟩) ⟨0, ""⟩ (noticeFile ++ formFile) =
        some ⟨d'.router, d.tally + d'.tally⟩ ∧
      d.tally = ⟨3, 1⟩ ∧ d'.tally = ⟨1, 1⟩ ∧
      run (.new ⟨5, 1⟩) ⟨0, ""⟩ (prune (fun cs => Live cs) noticeFile) = some pruned ∧
      pruned.router = d.router ∧ pruned.tally.dropped = 0 := by
  obtain ⟨hcut, haccounts, hprune, hlive, hfits⟩ := run_composes (.new ⟨5, 1⟩) ⟨0, ""⟩
  have hend : noticeFile = String.ofList noticeFile.toList.dropLast ++ "\n" := by decide +kernel
  have hparts := (hcut noticeFile formFile (.inr ⟨_, hend⟩)).1
  obtain ⟨both, hboth⟩ := Option.isSome_iff_exists.mp (hfits (by decide) (noticeFile ++ formFile))
  obtain ⟨d, hd, hrest⟩ := Option.bind_eq_some_iff.mp (hparts.symm.trans hboth)
  obtain ⟨d', hd', rfl⟩ := Option.map_eq_some_iff.mp hrest
  have hsame := hprune (fun cs => Live cs) noticeFile fun cs hcs => decide_eq_true hcs
  rw [hd] at hsame
  obtain ⟨pruned, hpruned, heq⟩ := Option.map_eq_some_iff.mp hsame
  refine ⟨d, d', pruned, hd, hd', hboth, ?_, ?_, hpruned, congrArg Prod.fst heq,
    hlive _ _ hpruned⟩
  · have haccount := haccounts _ _ hd
    exact (congrArg₂ Tally.mk haccount.received haccount.routed).trans (by decide +kernel)
  · have haccount := (run_composes d.router ⟨0, ""⟩).2.1 _ _ hd'
    exact (congrArg₂ Tally.mk haccount.received haccount.routed).trans (by decide +kernel)

end Dispatch

end Host

end EmbedUI

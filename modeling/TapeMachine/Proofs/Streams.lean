import TapeMachine.CommandLine.Run
import TapeMachine.Proofs.Course

/-!
# The standard streams of the command line

A command line attaches one channel to the standard streams, or none, and never both
(`CommandLine.Arguments.exclusive_of_parse`).  What is then written and what is left unread is told
by the steps in the course of the run (`CommandLine.run_streams`): every write on the attached
channel adds its text, every read on it takes one character, and whatever the program does on the
other channel does nothing.  A run that stops with a fault is no exception.

The text of a write is told from the cell alone: the number as it is shown, or the character whose
code is in the cell (`Cell.character?`).  Where the cell has the code of no character the write ends
in a fault.  Half of a surrogate pair has a code, and so it gets as far as the stream, which refuses
it because it cannot be encoded.
-/

namespace TapeMachine

open Operation

/-! ### What a cell has to say -/

/-- The character whose code is in a cell.  There is none in a block, and none if the number is
outside the range of the codes or the code of half of a surrogate pair. -/
def Cell.character? : Cell → Option Char
  | .int i => if 0 ≤ i ∧ i.toNat.isValidChar then some (Char.ofNat i.toNat) else none
  | .block _ => none

theorem Cell.character?_eq_some_iff {c : Cell} {x : Char} :
    c.character? = some x ↔ c = .int x.toNat := by
  unfold character?
  constructor
  · intro h
    split at h
    · rename_i i
      split_ifs at h with hi
      cases h
      have hcode : (Char.ofNat i.toNat).toNat = i.toNat := by
        rw [Char.ofNat, dif_pos hi.2]
        rfl
      rw [hcode, Int.toNat_of_nonneg hi.1]
    · cases h
  · rintro rfl
    have hvalid : x.toNat.isValidChar := x.valid
    simp only [Int.toNat_natCast, Int.natCast_nonneg, hvalid, and_self, ↓reduceIte,
      Char.ofNat_toNat]

theorem Cell.character?_eq_none {c : Cell} (h : ∀ n : Nat, n.isValidChar → c ≠ .int n) :
    c.character? = none := by
  cases hx : c.character? with
  | none => rfl
  | some x => exact absurd (character?_eq_some_iff.1 hx) (h x.toNat x.valid)

/-- What is handed to a writer of a cell is the character whose code it has, or half of a surrogate
pair; of any other cell nothing is. -/
theorem Operation.characterOf_cases (c : Cell) :
    (∃ x, c.character? = some x ∧ characterOf c = .ok (.text (String.singleton x))) ∨
    (∃ n : Nat, c = .int n ∧ 0xD800 ≤ n ∧ n < 0xE000 ∧ c.character? = none ∧
      characterOf c = .ok (.surrogate n)) ∨
    (∀ n : Nat, n < 0x110000 → c ≠ .int n) ∧ c.character? = none ∧ ∃ f, characterOf c = .error f := by
  by_cases hrange : ∃ n : Nat, n < 0x110000 ∧ c = .int n
  · obtain ⟨n, hn, rfl⟩ := hrange
    by_cases hpair : 0xD800 ≤ n ∧ n < 0xE000
    · refine .inr (.inl ⟨n, rfl, hpair.1, hpair.2, Cell.character?_eq_none fun k hk hne => ?_, ?_⟩)
      · cases hne
        unfold Nat.isValidChar at hk
        omega
      · simp only [characterOf]
        rw [if_neg (by omega), if_neg (by omega), if_pos (by omega), Int.toNat_natCast]
    · have hvalid : n.isValidChar := by
        unfold Nat.isValidChar
        omega
      refine .inl ⟨Char.ofNat n, ?_, ?_⟩
      · rw [Cell.character?, if_pos ⟨Int.natCast_nonneg n, hvalid⟩, Int.toNat_natCast]
      · simp only [characterOf]
        rw [if_neg (by omega), if_neg (by omega), if_neg (by omega), Int.toNat_natCast]
  · have hnone : ∀ n : Nat, n < 0x110000 → c ≠ .int n := fun n hn hc => hrange ⟨n, hn, hc⟩
    refine .inr (.inr ⟨hnone, Cell.character?_eq_none fun n hn => hnone n ?_, ?_⟩)
    · unfold Nat.isValidChar at hn
      omega
    · cases c with
      | block bs => exact ⟨_, rfl⟩
      | int i =>
        have hi : i < 0 ∨ 0x110000 ≤ i := by
          by_contra hin
          exact hnone i.toNat (by omega) (congrArg Cell.int (by omega))
        simp only [characterOf]
        split_ifs
        · exact ⟨_, rfl⟩
        · exact ⟨_, rfl⟩

/-- What the operation of a mode has to write of a cell: the number as it is shown, or the character
whose code is in the cell, if there is one. -/
def Mode.text? (mode : Mode) (c : Cell) : Option String :=
  match mode with
  | .consoleDecimalWrite => some c.text
  | _ => c.character?.map String.singleton

/-- What the next step writes on a channel that is attached to a stream. -/
def Machine.utterance (m : Machine) (ch : Channel) : String :=
  match m.operation?, m.cell with
  | some mode, .ok c => if mode.speaksOn? = some ch then (mode.text? c).getD "" else ""
  | _, _ => ""

theorem Machine.utterance_of_ne {m : Machine} {ch : Channel}
    (h : m.operation?.bind Mode.speaksOn? ≠ some ch) : m.utterance ch = "" := by
  unfold utterance
  split
  · rename_i mode c hop hc
    rw [hop] at h
    exact if_neg h
  · rfl

/-- The writers that are attached encode what they are handed. -/
def Lines.Encoding (ls : Lines) : Prop :=
  ∀ ch, (ls.get ch).output = true → (ls.get ch).encodes = true

/-- Half of a surrogate pair on a stream. -/
example : (Exec.advance.on
    { machine := { Machine.load ['?'] with cells := [.int 0xD827], mode := .int 2 }
      lines := { console := { output := true, encodes := true } } }).1 =
    .error (.unencodable 0xD827) := by decide +kernel

/-- The report of a run tells of all its events, and the lines are left as the run left them; the
note of a fault at its end is no event. -/
theorem Interpreter.events_lines_of_run {n : Nat} {i i' : Interpreter} {program : String}
    {r : Report} (h : i.run n program = some (r, i')) :
    r.events = ((World.load i.lines program).run n).world.events ∧
      i'.lines = ((World.load i.lines program).run n).world.lines := by
  unfold run at h
  rcases hv : (World.load i.lines program).run n with w | ⟨f, w⟩ | w
  · rw [hv] at h
    cases h
    exact ⟨rfl, rfl⟩
  · rw [hv] at h
    cases h
    refine ⟨?_, rfl⟩
    rw [Report.events, List.filterMap_append]
    exact List.append_nil _
  · rw [hv] at h
    cases h

namespace CommandLine

/-! ### What is written -/

theorem writtenText_append (es fs : List Event) :
    writtenText (es ++ fs) = writtenText es ++ writtenText fs := by
  rw [writtenText, List.map_append, String.join_append]
  rfl

theorem writtenText_eq_empty {es : List Event} (h : ∀ ch t, .wrote ch t ∉ es) :
    writtenText es = "" := by
  induction es with
  | nil => rfl
  | cons x es ih =>
    have htail : writtenText es = "" := ih fun ch t hm => h ch t (List.mem_cons_of_mem x hm)
    cases x with
    | wrote ch t => exact absurd List.mem_cons_self (h ch t)
    | read ch r => rw [writtenText, List.map_cons, String.join_cons, ← writtenText, htail]; rfl

theorem writtenText_write_text (s : Situation) (ch : Channel) (t : String) :
    writtenText ((s.write ch (.ok (.text t))).entries.reverse.filterMap Entry.event?) =
      if (s.lines.get ch).output then t else "" := by
  unfold Situation.write
  split
  · change writtenText [.wrote ch t] = t
    simp [writtenText]
  · rfl

theorem writtenText_write_character {s : Situation} (h : s.lines.Encoding) (ch : Channel) :
    writtenText ((s.write ch (characterOf s.cell)).entries.reverse.filterMap Entry.event?) =
      if (s.lines.get ch).output then (s.cell.character?.map String.singleton).getD "" else "" := by
  obtain ⟨x, hx, hc⟩ | ⟨n, -, -, -, hx, hc⟩ | ⟨-, hx, f, hc⟩ := characterOf_cases s.cell
  · rw [hc, hx]
    exact writtenText_write_text s ch (String.singleton x)
  · rw [hc, hx, Situation.write]
    split
    · rename_i ho
      simp only [Line.refusal?, h ch ho]
      rfl
    · rfl
  · rw [hc, hx, Situation.write]
    split <;> rfl

/-- The operation of a mode that writes, where a writer may be attached or not. -/
theorem writtenText_effect {mode : Mode} {ch : Channel} (h : mode.speaksOn? = some ch)
    {s : Situation} (he : s.lines.Encoding) :
    writtenText ((mode.effect s).entries.reverse.filterMap Entry.event?) =
      if (s.lines.get ch).output then (mode.text? s.cell).getD "" else "" := by
  cases mode with
  | consoleDecimalWrite =>
    cases h
    exact writtenText_write_text s .console s.cell.text
  | consoleAsciiWrite | modemAsciiWrite =>
    cases h
    exact writtenText_write_character he _
  | _ => cases h

/-- A step writes on the channels to which a writer is attached. -/
theorem writtenText_happenings {w : World} (he : w.lines.Encoding) : writtenText w.happenings =
    (if (w.lines.get .console).output then w.machine.utterance .console else "") ++
      (if (w.lines.get .modem).output then w.machine.utterance .modem else "") := by
  have hother : ∀ {ch d}, w.machine.operation?.bind Mode.speaksOn? = some ch → ch ≠ d →
      w.machine.utterance d = "" := by
    intro ch d hch hne
    refine Machine.utterance_of_ne ?_
    rw [hch]
    exact fun h => hne (Option.some.inj h)
  cases hs : w.machine.operation?.bind Mode.speaksOn? with
  | none =>
    -- No event of the step is a write.
    have hsilent : ∀ ch t, .wrote ch t ∉ w.happenings := by
      intro ch t hmem
      obtain ⟨e, he, hevent⟩ := List.mem_filterMap.1 hmem
      have hmay := World.may_of_mem_entries (List.mem_reverse.1 he)
      cases e with
      | note n => cases hevent
      | event x =>
        cases hevent
        cases hs.symm.trans hmay
    have hempty : ∀ ch, w.machine.utterance ch = "" := by
      intro ch
      refine Machine.utterance_of_ne ?_
      rw [hs]
      exact nofun
    simp only [writtenText_eq_empty hsilent, hempty, ite_self]
    rfl
  | some ch =>
    obtain ⟨mode, hop, hspeaks⟩ := Option.bind_eq_some_iff.1 hs
    obtain ⟨c, hc, hhap⟩ := World.happenings_of_operation? hop
    have hsays : w.machine.utterance ch = (mode.text? c).getD "" := by
      simp only [Machine.utterance, hop, hc]
      exact if_pos hspeaks
    have hwritten : writtenText w.happenings =
        if (w.lines.get ch).output then w.machine.utterance ch else "" := by
      have hencoding : (w.situation c).lines.Encoding := he
      rw [hhap, writtenText_effect hspeaks hencoding, hsays]
      rfl
    cases ch with
    | console =>
      rw [hwritten, hother (d := .modem) hs nofun, ite_self]
      exact String.append_empty.symm
    | modem =>
      rw [hwritten, hother (d := .console) hs nofun, ite_self]
      exact String.empty_append.symm

/-- What several steps write, if it is known of each what it writes. -/
theorem writtenText_flatMap {ws : List World} {f : World → String}
    (h : ∀ v ∈ ws, writtenText v.happenings = f v) :
    writtenText (ws.flatMap World.happenings) = String.join (ws.map f) := by
  induction ws with
  | nil => rfl
  | cons v ws ih =>
    have htail := ih fun u hu => h u (List.mem_cons_of_mem v hu)
    rw [List.flatMap_cons, writtenText_append, h v List.mem_cons_self, htail, List.map_cons,
      String.join_cons]

/-! ### What is left unread -/

namespace Arguments

/-- The channel is attached to the standard streams. -/
def Settings.attaches (s : Settings) : Channel → Bool
  | .console => s.console
  | .modem => s.modem

/-- At most one channel is attached to the standard streams. -/
def Settings.Exclusive (s : Settings) : Prop := s.console = false ∨ s.modem = false

variable {s s' : Settings}

theorem Settings.Exclusive.attaches_eq_false {ch d : Channel} (hs : s.Exclusive)
    (h : s.attaches ch = true) (hne : ch ≠ d) : s.attaches d = false := by
  cases ch <;> cases d
  · exact absurd rfl hne
  · exact hs.resolve_left (Bool.eq_false_iff.not.2 (not_not.2 h))
  · exact hs.resolve_right (Bool.eq_false_iff.not.2 (not_not.2 h))
  · exact absurd rfl hne

theorem apply_exclusive {f : Flag} {value : Option String} (h : apply s f value = .ok s')
    (hs : s.Exclusive) : s'.Exclusive := by
  unfold apply at h
  split at h
  · cases h
  · rename_i hfind
    cases f with
    | help => cases h
    | console =>
      cases h
      exact .inr (Bool.eq_false_iff.2 (List.find?_eq_none.1 hfind .modem List.mem_cons_self))
    | modem =>
      cases h
      exact .inl (Bool.eq_false_iff.2 (List.find?_eq_none.1 hfind .console List.mem_cons_self))
    | debug =>
      cases h
      exact hs
    | frame =>
      simp only at h
      split at h
      · cases h
        exact hs
      · split at h <;> cases h
        exact hs

theorem applyAll_exclusive {fs : List (Flag × Option String)} (h : applyAll s fs = .ok s')
    (hs : s.Exclusive) : s'.Exclusive := by
  induction fs generalizing s with
  | nil =>
    cases h
    exact hs
  | cons p fs ih =>
    rw [applyAll, List.foldlM_cons] at h
    cases ha : apply s p.1 p.2 with
    | error e =>
      rw [ha] at h
      cases h
    | ok u =>
      rw [ha] at h
      exact ih h (apply_exclusive ha hs)

theorem take_exclusive {ws : List Word} (h : take s ws = .ok s') (hs : s.Exclusive) :
    s'.Exclusive := by
  fun_induction take s ws with
  | case1 s =>
    cases h
    exact hs
  | case2 s text rest hp ih => exact ih h hs
  | case3 s text rest p hp ih => exact ih h hs
  | case4 s text rest ih => exact ih h hs
  | case5 s rest text hp hn ih => exact ih h hs
  | case6 s rest hno =>
    cases h
    exact hs
  | case7 s f long attached rest e he => cases h
  | case8 s f long attached rest fs taken hu e he => cases h
  | case9 s f long attached rest fs taken hu u hu' ih => exact ih h (applyAll_exclusive hu' hs)

/-- **A command line attaches at most one channel.** -/
theorem exclusive_of_parse {args : List String} {program : String}
    (h : parse args = .ok (program, s)) : s.Exclusive := by
  unfold parse at h
  split at h
  · cases h
  · split at h
    · cases h
    · rename_i u hu
      have hexcl : u.Exclusive := take_exclusive hu (.inl rfl)
      split at h <;> cases h
      exact hexcl

end Arguments

open Arguments

variable {s : Settings} {ch : Channel} {stdin : String}

theorem get_linesOf (hs : s.Exclusive) : (linesOf s stdin).get ch =
    if s.attaches ch then
      { input := some (repliesOf stdin), output := true, encodes := true }
    else {} := by
  unfold linesOf
  cases hc : s.console <;> cases hm : s.modem <;> cases ch <;>
    simp_all [Settings.Exclusive, Settings.attaches, Lines.get]

section Course

variable {limit : Nat} {program : String} {v : World} (hs : s.Exclusive)
  (hv : v ∈ (World.load (linesOf s stdin) program).course limit)
include hs hv

/-- In the course of a run the attachments stay as they are. -/
theorem get_lines_of_mem_course (ch : Channel) : ∃ k, v.lines.get ch =
    if s.attaches ch then
      { input := some ((repliesOf stdin).drop k), output := true, encodes := true }
    else {} := by
  obtain ⟨k, hk⟩ := World.exists_lines_of_mem_course hv
  refine ⟨k ch, ?_⟩
  rw [hk, Lines.get_drop, World.load, get_linesOf hs]
  split <;> rfl

/-- What is attached has a writer, and the writer encodes. -/
theorem writer_of_mem_course (ch : Channel) :
    (v.lines.get ch).output = s.attaches ch ∧ (v.lines.get ch).encodes = s.attaches ch := by
  obtain ⟨k, hk⟩ := get_lines_of_mem_course hs hv ch
  rw [hk]
  cases s.attaches ch <;> exact ⟨rfl, rfl⟩

theorem writtenText_of_mem_course : writtenText v.happenings =
    (if s.attaches .console then v.machine.utterance .console else "") ++
      (if s.attaches .modem then v.machine.utterance .modem else "") := by
  have hwriter := writer_of_mem_course hs hv
  have hencoding : v.lines.Encoding := fun ch ho => by
    rw [(hwriter ch).2, ← (hwriter ch).1, ho]
  rw [writtenText_happenings hencoding, (hwriter .console).1, (hwriter .modem).1]

/-- A step writes what it writes on the attached channel. -/
theorem writtenText_of_attaches (hch : s.attaches ch = true) :
    writtenText v.happenings = v.machine.utterance ch := by
  rw [writtenText_of_mem_course hs hv]
  cases ch with
  | console =>
    rw [hch, hs.attaches_eq_false hch (d := .modem) nofun]
    exact String.append_empty
  | modem =>
    rw [hch, hs.attaches_eq_false hch (d := .console) nofun]
    exact String.empty_append

end Course

/-- Everything that a run leaves on the streams if no frame is to be shown. -/
theorem execute_eq {limit : Nat} {program : String} (hframe : s.frame = none)
    (hstop : (execute limit program s stdin).ending ≠ .unfinished) :
    let w := World.load (linesOf s stdin) program
    (execute limit program s stdin).ending = .exit 0 ∧
      (execute limit program s stdin).stdout =
        writtenText ((w.course limit).flatMap World.happenings) ++ "\n\n" ∧
      (execute limit program s stdin).unread = unreadOn s stdin (w.run limit).world.lines := by
  intro w
  unfold execute at hstop ⊢
  rcases hrun : Interpreter.run limit { lines := linesOf s stdin } program with _ | ⟨r, i⟩
  · rw [hrun] at hstop
    exact absurd rfl hstop
  · obtain ⟨hevents, hlines⟩ := Interpreter.events_lines_of_run hrun
    have hwritten : r.events = (w.course limit).flatMap World.happenings :=
      hevents.trans (w.events_run limit)
    simp only [hframe, shownFrame, hwritten, hlines, String.append_empty]
    exact ⟨trivial, trivial, rfl⟩

end CommandLine

end TapeMachine

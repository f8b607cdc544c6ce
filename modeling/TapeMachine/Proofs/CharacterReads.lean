import TapeMachine.Proofs.Course
import TapeMachine.Proofs.StepFault

/-!
# Reading characters

Two operations read a character and store its code, one from the console and one from the modem.  The
one on the modem first looks for digits: of a text that is none it takes the code, and then it takes
the code of what it has, as if that still were a character.  So

* on a single digit the two agree;
* on any other single character the one on the console stores the code, while the one on the modem
  ends in a fault and the machine stays as it is;
* a text that is not a single character both refuse.

A character that the modem sends can be sent back only if it is a digit.
`World.character_reads` says all this.
-/

namespace TapeMachine

open Exec Operation

/-- A reader is attached, and its next reply is the text `t`. -/
def Line.Gives (l : Line) (t : String) : Prop := ∃ rest, l.ask? = some (.text t, rest)

/-! ### What is stored -/

namespace Index

variable {α : Type _} {xs ys : List α} {i : Int} {x : α}

/-- What was stored at an index is selected by it. -/
theorem get_of_set (h : set xs i x = .ok ys) : get ys i = .ok x := by
  have hlen := length_of_set h
  unfold set at h
  split at h
  · rename_i k hk
    cases h
    have hlt := lt_of_resolve hk
    rw [get, hlen, hk]
    simp only [List.getElem?_set_self hlt]
  · cases h

end Index

/-- What was put in the place of the current cell is the current cell. -/
theorem State.cell_of_put {s t : State} {c d : Cell} (h : s.cell = .ok c)
    (hcells : t.cells = (s.put d).cells) (hp : t.pointer = s.pointer) : t.cell = .ok d := by
  rw [cell_eq_ok_iff, hcells, hp]
  exact Index.get_of_set (set_cells_eq_ok h d)

namespace Operation

theorem codeOf_singleton (x : Char) : codeOf (String.singleton x) = .ok x.toNat := by
  simp [codeOf]

theorem codeOf_of_length_ne {t : String} (h : t.toList.length ≠ 1) :
    codeOf t = .error (.notOneCharacter t.toList.length) := by
  unfold codeOf
  split
  · rename_i ht
    rw [ht] at h
    exact absurd rfl h
  · rfl

/-- What the modem stores of a text. -/
def digitCodeOf (t : String) : Except Fault Cell :=
  match codeOf t with
  | .ok n => if Text.isDigits t.toList then .ok (toByte n) else .error .numberForCharacter
  | .error f => .error f

theorem digitCodeOf_singleton (x : Char) : digitCodeOf (String.singleton x) =
    if Text.isDigit x then .ok (toByte x.toNat) else .error .numberForCharacter := by
  simp [digitCodeOf, codeOf_singleton, Text.isDigits]

theorem digitCodeOf_of_length_ne {t : String} (h : t.toList.length ≠ 1) :
    digitCodeOf t = .error (.notOneCharacter t.toList.length) := by
  rw [digitCodeOf, codeOf_of_length_ne h]

end Operation

/-- What reading a text does. -/
theorem Situation.read_text (s : Situation) (ch : Channel) {t : String} {rest : Line}
    (h : (s.lines.get ch).ask? = some (.text t, rest)) (nothing : Fault)
    (value : String → Except Fault Cell) : s.read ch nothing value =
      ({ buffer := s.buffer
         lines := s.lines.set ch rest
         entries := [.note (.reading (some t)), .event (.read ch (.text t))] } : Effect).ending
        ((value t).map some) := by
  simp [read, h]

/-! ### The operations that read a character -/

namespace World

variable {w v : World} {t : String} {c d : Cell} {f : Fault} {mode : Mode}

/-- The operation of a mode stores `d` in the current cell and changes nothing else of the machine. -/
def Stores (w : World) (mode : Mode) (d : Cell) : Prop :=
  ∃ v, mode.perform.on w = (.ok none, v) ∧
    v.machine = { w.machine with cells := (w.machine.put d).cells }

/-- The operation of a mode ends in the fault `f` and changes nothing of the machine. -/
def Refuses (w : World) (mode : Mode) (f : Fault) : Prop :=
  ∃ v, mode.perform.on w = (.error f, v) ∧ v.machine = w.machine

/-- The operation of a mode reads a text and ends with its value `r`. -/
structure Reads (w : World) (mode : Mode) (ch : Channel) (t : String) (r : Except Fault Cell) :
    Prop where
  leavesFrame_eq : mode.leavesFrame = false
  exists_effect : ∀ c, ∃ rest, mode.effect (w.situation c) =
    ({ buffer := w.machine.buffer
       lines := w.lines.set ch rest
       entries := [.note (.reading (some t)), .event (.read ch (.text t))] } : Effect).ending
      (r.map some)

theorem reads_console (h : w.lines.console.Gives t) :
    w.Reads .consoleAsciiRead .console t ((codeOf t).map fun n => toByte n) := by
  obtain ⟨rest, hask⟩ := h
  have hline : (w.lines.get .console).ask? = some (.text t, rest) := hask
  exact ⟨rfl, fun c => ⟨rest, by simp [Mode.effect, Situation.read, situation, hline]⟩⟩

theorem reads_decimal (h : w.lines.console.Gives t) :
    w.Reads .consoleDecimalRead .console t ((numberOf t).map toByte) := by
  obtain ⟨rest, hask⟩ := h
  exact ⟨rfl, fun c => ⟨rest, (w.situation c).read_text .console hask _ _⟩⟩

theorem reads_modem (h : w.lines.modem.Gives t) :
    w.Reads .modemAsciiRead .modem t (digitCodeOf t) := by
  obtain ⟨rest, hask⟩ := h
  have hline : (w.lines.get .modem).ask? = some (.text t, rest) := hask
  refine ⟨rfl, fun c => ⟨rest, ?_⟩⟩
  change (w.situation c).read .modem .nothingForNumber digitCodeOf = _
  simp [Situation.read, situation, hline]

namespace Reads

variable {ch : Channel}

theorem stores (h : w.Reads mode ch t (.ok d)) (hc : w.machine.cell = .ok c) :
    w.Stores mode d := by
  obtain ⟨rest, heffect⟩ := h.exists_effect c
  have hperform := mode.on_perform hc
  rw [heffect, h.leavesFrame_eq] at hperform
  exact ⟨_, hperform, rfl⟩

theorem refuses (h : w.Reads mode ch t (.error f)) (hc : w.machine.cell = .ok c) :
    w.Refuses mode f := by
  obtain ⟨rest, heffect⟩ := h.exists_effect c
  have hperform := mode.on_perform hc
  rw [heffect] at hperform
  exact ⟨_, hperform, rfl⟩

/-- A step that reads a text with a value stores it. -/
theorem exists_next (h : w.Reads mode ch t (.ok d)) (hop : w.machine.operation? = some mode) :
    ∃ v, w.Next v ∧ v.machine.cell = .ok d := by
  obtain ⟨-, -, ⟨c, hc⟩, -⟩ := Machine.of_operation?_eq_some hop
  obtain ⟨rest, heffect⟩ := h.exists_effect c
  refine ⟨_, next_of_operation? hop hc (by rw [heffect]; rfl), ?_⟩
  obtain ⟨p, q, hmove⟩ := exists_moveOn_eq (w.operated mode c).machine.toState
  change (moveOn (w.operated mode c).machine.toState).cell = .ok d
  rw [hmove, operated, heffect]
  exact State.cell_of_put (s := (w.started .operate c).machine.toState) hc rfl rfl

/-- A step that reads a text without a value stops the run, and nothing but the read has happened. -/
theorem exists_run_eq_stopped (h : w.Reads mode ch t (.error f))
    (hop : w.machine.operation? = some mode) (k : Nat) :
    ∃ v, w.run (k + 1) = .stopped f v ∧ v.events = w.events ++ [.read ch (.text t)] := by
  obtain ⟨-, -, ⟨c, hc⟩, -⟩ := Machine.of_operation?_eq_some hop
  obtain ⟨rest, heffect⟩ := h.exists_effect c
  refine ⟨_, run_of_operation? hop hc (by rw [heffect]; rfl) k, ?_⟩
  rw [events_operated, heffect]
  rfl

end Reads

/-- A step that writes the code of a character sends this character. -/
theorem exists_next_of_write {n : Nat} (hn : n < 256)
    (hop : w.machine.operation? = some .modemAsciiWrite) (hout : w.lines.modem.output = true)
    (hcell : w.machine.cell = .ok (.int n)) :
    ∃ v, w.Next v ∧ v.events = w.events ++ [.wrote .modem (String.singleton (Char.ofNat n))] := by
  have hcharacter : characterOf (.int n) = .ok (.text (String.singleton (Char.ofNat n))) := by
    simp only [characterOf]
    rw [if_neg (by omega), if_neg (by omega), if_neg (by omega), Int.toNat_natCast]
  have heffect : Mode.modemAsciiWrite.effect (w.situation (.int n)) =
      (w.situation (.int n)).keep [.event (.wrote .modem (String.singleton (Char.ofNat n))),
        .note (.writing (String.singleton (Char.ofNat n)))] := by
    have hline : (w.lines.get .modem).output = true := hout
    simp [Mode.effect, Situation.write, situation, hline, hcharacter, Line.refusal?, Writing.shown]
  refine ⟨_, next_of_operation? hop hcell (by rw [heffect]; rfl), ?_⟩
  rw [events_completed, events_operated, heffect]
  rfl

/-- What a step stored of a character is sent as this character. -/
theorem Reads.exists_echo {ch : Channel} {x : Char} (h : w.Reads mode ch t (.ok (toByte x.toNat)))
    (hx : x.toNat < 256) (hop : w.machine.operation? = some mode) :
    ∃ v, w.Next v ∧ ∀ u : World, u.machine.operation? = some .modemAsciiWrite →
      u.lines.modem.output = true → u.machine.cell = v.machine.cell →
      ∃ u', u.Next u' ∧ u'.events = u.events ++ [.wrote .modem (String.singleton x)] := by
  obtain ⟨v, hnext, hstored⟩ := h.exists_next hop
  have hcode : toByte x.toNat = .int x.toNat := by
    rw [toByte, Int.emod_eq_of_lt (by omega) (by omega)]
  refine ⟨v, hnext, fun u hu hout hcell => ?_⟩
  have hwrite := exists_next_of_write hx hu hout (by rw [hcell, hstored, hcode])
  rwa [Char.ofNat_toNat] at hwrite

/-- **Reading characters from the console and from the modem.**  Let the same machine be given the
same text `t` on either channel.

* If `t` is a single character, the operation on the console stores its code modulo 256.  If it is a
  digit, the one on the modem stores the same; if not, it ends in a fault and changes nothing.
* Otherwise both end in the same fault and change nothing.

So let a program read a single character with a code below 256 from the modem.  If it is a digit, the
step works, and whenever what it stored is written on the modem, the character is sent; if not, the
run stops there, and nothing is sent. -/
theorem character_reads (hcell : w.machine.cell.isOk = true)
    (hm : v.machine = w.machine) (hw : w.lines.console.Gives t) (hv : v.lines.modem.Gives t) :
    (∀ x, t = String.singleton x →
      w.Stores .consoleAsciiRead (.int (x.toNat % 256)) ∧
      (if Text.isDigit x then v.Stores .modemAsciiRead (.int (x.toNat % 256))
        else v.Refuses .modemAsciiRead .numberForCharacter) ∧
      (x.toNat < 256 → v.machine.operation? = some .modemAsciiRead →
        if Text.isDigit x then
          ∃ v', v.Next v' ∧ ∀ u : World, u.machine.operation? = some .modemAsciiWrite →
            u.lines.modem.output = true → u.machine.cell = v'.machine.cell →
            ∃ u', u.Next u' ∧ u'.events = u.events ++ [.wrote .modem t]
        else ∀ k, ∃ v', v.run (k + 1) = .stopped .numberForCharacter v' ∧
          v'.events = v.events ++ [.read .modem (.text t)])) ∧
    (t.toList.length ≠ 1 → ∃ f, w.Refuses .consoleAsciiRead f ∧ v.Refuses .modemAsciiRead f) := by
  obtain ⟨c, hc⟩ : ∃ c, w.machine.cell = .ok c := by
    cases hc : w.machine.cell with
    | error f => rw [hc] at hcell; cases hcell
    | ok c => exact ⟨c, rfl⟩
  have hc' : v.machine.cell = .ok c := by rw [hm]; exact hc
  have hconsole := reads_console hw
  have hmodem := reads_modem hv
  refine ⟨?_, fun ht => ?_⟩
  · rintro x rfl
    rw [codeOf_singleton] at hconsole
    rw [digitCodeOf_singleton] at hmodem
    refine ⟨hconsole.stores hc, ?_⟩
    by_cases hd : Text.isDigit x = true
    · simp only [if_pos hd] at hmodem ⊢
      exact ⟨hmodem.stores hc', hmodem.exists_echo⟩
    · simp only [if_neg hd] at hmodem ⊢
      exact ⟨hmodem.refuses hc', fun _ hop => hmodem.exists_run_eq_stopped hop⟩
  · rw [codeOf_of_length_ne ht] at hconsole
    rw [digitCodeOf_of_length_ne ht] at hmodem
    exact ⟨_, hconsole.refuses hc, hmodem.refuses hc'⟩

/-- A letter is read from the console and refused on the modem, and a program that sends back what it
reads from the modem does so with a digit. -/
theorem character_reads_echo :
    let letter : Line := { input := some [.text "a"] }
    let digit : Line := { input := some [.text "7"], output := true }
    World.Stores ⟨Machine.load [], { console := letter }, []⟩ .consoleAsciiRead (.int 97) ∧
      World.Refuses ⟨Machine.load [], { modem := letter }, []⟩ .modemAsciiRead .numberForCharacter ∧
      ∃ w u v, w = ((load { modem := digit } "+++++=>?<-=>?").steps 7).2 ∧
        u = ((load { modem := digit } "+++++=>?<-=>?").steps 12).2 ∧
        w.machine.operation? = some .modemAsciiRead ∧ u.Next v ∧
        v.events = u.events ++ [.wrote .modem "7"] := by
  intro letter digit
  have hletter : letter.Gives "a" := ⟨_, rfl⟩
  obtain ⟨hstores, hrefuses, -⟩ :=
    (character_reads (w := ⟨Machine.load [], { console := letter }, []⟩)
      (v := ⟨Machine.load [], { modem := letter }, []⟩) (by decide +kernel) rfl hletter hletter).1
      'a' rfl
  refine ⟨hstores, hrefuses, ?_⟩
  obtain ⟨w, hw⟩ : ∃ w, w = ((load { modem := digit } "+++++=>?<-=>?").steps 7).2 := ⟨_, rfl⟩
  obtain ⟨u, hu⟩ : ∃ u, u = ((load { modem := digit } "+++++=>?<-=>?").steps 12).2 := ⟨_, rfl⟩
  have hread : w.machine.operation? = some .modemAsciiRead ∧ w.lines.modem = digit ∧
      w.machine.cell.isOk = true ∧ (advance.on w).2.machine.cell = .ok (.int 55) := by
    rw [hw]
    decide +kernel
  have hwrite : u.machine.operation? = some .modemAsciiWrite ∧ u.lines.modem.output = true ∧
      u.machine.cell = .ok (.int 55) := by
    rw [hu]
    decide +kernel
  obtain ⟨hop, hline, hcell, hstored⟩ := hread
  have hdigit : digit.Gives "7" := ⟨_, rfl⟩
  obtain ⟨-, -, hecho⟩ :=
    (character_reads (w := { w with lines := { console := digit } }) (v := w) hcell rfl hdigit
      (by rw [hline]; exact hdigit)).1 '7' rfl
  obtain ⟨x, hx, hback⟩ := hecho (by decide) hop
  have hsame : u.machine.cell = x.machine.cell := by
    rw [show advance.on w = (.ok (), x) from hx] at hstored
    rw [hstored, hwrite.2.2]
  obtain ⟨v, hv, hevents⟩ := hback u hwrite.1 hwrite.2.1 hsame
  exact ⟨w, u, v, hw, hu, hop, hv, hevents⟩

end World

end TapeMachine

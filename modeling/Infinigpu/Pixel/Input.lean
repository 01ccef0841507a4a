import Infinigpu.Lib.Lts
import Mathlib.Data.Finset.Basic

/-!
# What the guest is told of the keyboard and the mouse (`infinigpu-viewer`, `input` and `App`)

The window thread turns its events into text messages, and the stream thread sends them one after another on the
socket of the frames.  A key or a button is down for the far end when the last message about it says so.

* `key`, `mouseButton`, `wheel`, `mouseMove`: the messages; each says what it is about;
* `App.windowEvent`: what an event sends, and what is held after it;
* `Client.step`: the events of the window and the turns of the stream thread, in any order.
-/

namespace Infinigpu.Input

/-! ### Keys and buttons -/

/-- The physical keys that have a `QKeyCode`, and the other ones. -/
inductive KeyCode where
  | keyA | keyB | keyC | keyD | keyE | keyF | keyG | keyH | keyI | keyJ | keyK | keyL | keyM | keyN | keyO | keyP
  | keyQ | keyR | keyS | keyT | keyU | keyV | keyW | keyX | keyY | keyZ | digit0 | digit1 | digit2 | digit3 | digit4
  | digit5 | digit6 | digit7 | digit8 | digit9 | enter | escape | space | backspace | tab | capsLock | shiftLeft
  | shiftRight | controlLeft | controlRight | altLeft | altRight | superLeft | superRight | contextMenu | minus
  | equal | bracketLeft | bracketRight | backslash | semicolon | quote | comma | period | slash | backquote | arrowUp
  | arrowDown | arrowLeft | arrowRight | home | end_ | pageUp | pageDown | insert | delete | f1 | f2 | f3 | f4 | f5
  | f6 | f7 | f8 | f9 | f10 | f11 | f12 | numpad0 | numpad1 | numpad2 | numpad3 | numpad4 | numpad5 | numpad6
  | numpad7 | numpad8 | numpad9 | numpadAdd | numpadSubtract | numpadMultiply | numpadDivide | numpadEnter
  | numpadDecimal
  | other (n : Nat)
deriving DecidableEq

inductive MouseButton where
  | left
  | right
  | middle
  | back
  | forward
  | other (n : UInt16)
deriving DecidableEq

def qcode : KeyCode → Option String
  | .keyA => some "a" | .keyB => some "b" | .keyC => some "c" | .keyD => some "d" | .keyE => some "e"
  | .keyF => some "f" | .keyG => some "g" | .keyH => some "h" | .keyI => some "i" | .keyJ => some "j"
  | .keyK => some "k" | .keyL => some "l" | .keyM => some "m" | .keyN => some "n" | .keyO => some "o"
  | .keyP => some "p" | .keyQ => some "q" | .keyR => some "r" | .keyS => some "s" | .keyT => some "t"
  | .keyU => some "u" | .keyV => some "v" | .keyW => some "w" | .keyX => some "x" | .keyY => some "y"
  | .keyZ => some "z" | .digit0 => some "0" | .digit1 => some "1" | .digit2 => some "2" | .digit3 => some "3"
  | .digit4 => some "4" | .digit5 => some "5" | .digit6 => some "6" | .digit7 => some "7" | .digit8 => some "8"
  | .digit9 => some "9" | .enter => some "ret" | .escape => some "esc" | .space => some "spc"
  | .backspace => some "backspace" | .tab => some "tab" | .capsLock => some "caps_lock" | .shiftLeft => some "shift"
  | .shiftRight => some "shift_r" | .controlLeft => some "ctrl" | .controlRight => some "ctrl_r"
  | .altLeft => some "alt" | .altRight => some "alt_r" | .superLeft => some "meta_l" | .superRight => some "meta_r"
  | .contextMenu => some "menu" | .minus => some "minus" | .equal => some "equal"
  | .bracketLeft => some "bracket_left" | .bracketRight => some "bracket_right" | .backslash => some "backslash"
  | .semicolon => some "semicolon" | .quote => some "apostrophe" | .comma => some "comma" | .period => some "dot"
  | .slash => some "slash" | .backquote => some "grave_accent" | .arrowUp => some "up" | .arrowDown => some "down"
  | .arrowLeft => some "left" | .arrowRight => some "right" | .home => some "home" | .end_ => some "end"
  | .pageUp => some "pgup" | .pageDown => some "pgdn" | .insert => some "insert" | .delete => some "delete"
  | .f1 => some "f1" | .f2 => some "f2" | .f3 => some "f3" | .f4 => some "f4" | .f5 => some "f5" | .f6 => some "f6"
  | .f7 => some "f7" | .f8 => some "f8" | .f9 => some "f9" | .f10 => some "f10" | .f11 => some "f11"
  | .f12 => some "f12" | .numpad0 => some "kp_0" | .numpad1 => some "kp_1" | .numpad2 => some "kp_2"
  | .numpad3 => some "kp_3" | .numpad4 => some "kp_4" | .numpad5 => some "kp_5" | .numpad6 => some "kp_6"
  | .numpad7 => some "kp_7" | .numpad8 => some "kp_8" | .numpad9 => some "kp_9" | .numpadAdd => some "kp_add"
  | .numpadSubtract => some "kp_subtract" | .numpadMultiply => some "kp_multiply" | .numpadDivide => some "kp_divide"
  | .numpadEnter => some "kp_enter" | .numpadDecimal => some "kp_decimal"
  | .other _ => none

def keys : List KeyCode := [
  .keyA, .keyB, .keyC, .keyD, .keyE, .keyF, .keyG, .keyH, .keyI, .keyJ, .keyK, .keyL, .keyM, .keyN, .keyO, .keyP,
  .keyQ, .keyR, .keyS, .keyT, .keyU, .keyV, .keyW, .keyX, .keyY, .keyZ, .digit0, .digit1, .digit2, .digit3, .digit4,
  .digit5, .digit6, .digit7, .digit8, .digit9, .enter, .escape, .space, .backspace, .tab, .capsLock, .shiftLeft,
  .shiftRight, .controlLeft, .controlRight, .altLeft, .altRight, .superLeft, .superRight, .contextMenu, .minus,
  .equal, .bracketLeft, .bracketRight, .backslash, .semicolon, .quote, .comma, .period, .slash, .backquote, .arrowUp,
  .arrowDown, .arrowLeft, .arrowRight, .home, .end_, .pageUp, .pageDown, .insert, .delete, .f1, .f2, .f3, .f4, .f5,
  .f6, .f7, .f8, .f9, .f10, .f11, .f12, .numpad0, .numpad1, .numpad2, .numpad3, .numpad4, .numpad5, .numpad6,
  .numpad7, .numpad8, .numpad9, .numpadAdd, .numpadSubtract, .numpadMultiply, .numpadDivide, .numpadEnter,
  .numpadDecimal]

private theorem nodup_qcodes : (keys.map qcode).Nodup := by decide +kernel

private theorem mem_keys {c : KeyCode} {q : String} (h : qcode c = some q) : c ∈ keys := by
  cases c
  case other => cases h
  all_goals decide

/-- No two keys share a `QKeyCode`. -/
private theorem qcode_injective {c c' : KeyCode} {q : String} (h : qcode c = some q) (h' : qcode c' = some q) :
    c = c' :=
  List.inj_on_of_nodup_map nodup_qcodes (mem_keys h) (mem_keys h') (h.trans h'.symm)

def buttonLetter : MouseButton → Option String
  | .left => some "l"
  | .right => some "r"
  | .middle => some "m"
  | _ => none

private theorem buttonLetter_injective {b b' : MouseButton} {l : String} (h : buttonLetter b = some l)
    (h' : buttonLetter b' = some l) : b = b' := by
  cases b <;> cases h <;> cases b' <;> first | rfl | (simp [buttonLetter] at h')

/-! ### Messages -/

/-- `down as u8`. -/
def flag (down : Bool) : String := if down then "1" else "0"

/-- A message about one key or one button. -/
def press (kind field name : String) (down : Bool) : String :=
  r#"{"t":""# ++ kind ++ r#"",""# ++ field ++ r#"":""# ++ name ++ r#"","d":"# ++ flag down ++ r#"}"#

def key (code : KeyCode) (down : Bool) : Option String := (qcode code).map fun q => press "k" "q" q down

def mouseButton (button : MouseButton) (down : Bool) : Option String :=
  (buttonLetter button).map fun b => press "b" "b" b down

def wheel (dy : Float32) : Option String :=
  if dy == 0 then none else some (r#"{"t":"w","d":"# ++ (if dy > 0 then "1" else "-1") ++ r#"}"#)

def clamp01 (x : Float) : Float := if x < 0 then 0 else if x > 1 then 1 else x

/-- `fixed4` writes a number with four decimals. -/
def mouseMove (fixed4 : Float → String) (x y : Float) : String :=
  r#"{"t":"m","x":"# ++ fixed4 (clamp01 x) ++ r#","y":"# ++ fixed4 (clamp01 y) ++ r#"}"#

/-- The character that says what a message is about. -/
def kindOf (m : String) : Option Char := m.toList[6]?

private theorem flag_injective {d d' : Bool} (h : flag d = flag d') : d = d' := by
  revert h
  cases d <;> cases d' <;> decide

private theorem flagged_injective {front back tail name name' : String} {d d' : Bool}
    (h : front ++ name ++ back ++ flag d ++ tail = front ++ name' ++ back ++ flag d' ++ tail) :
    name = name' ∧ d = d' := by
  have hchars := congrArg String.toList h
  simp only [String.toList_append, List.append_assoc, List.append_cancel_left_eq] at hchars
  have hlen : (flag d).toList.length = (flag d').toList.length := by cases d <;> cases d' <;> rfl
  obtain ⟨hname, hrest⟩ := List.append_inj' hchars (by simp only [List.length_append, hlen])
  refine ⟨String.toList_inj.1 hname, ?_⟩
  have hflag := List.append_cancel_right (List.append_cancel_left hrest)
  exact flag_injective (String.toList_inj.1 hflag)

private theorem press_injective {kind field name name' : String} {d d' : Bool}
    (h : press kind field name d = press kind field name' d') : name = name' ∧ d = d' :=
  flagged_injective h

/-- What a message is about stands at its front. -/
private theorem kindOf_append {m : String} {k : Char} (h : kindOf m = some k) (rest : String) :
    kindOf (m ++ rest) = some k := by
  obtain ⟨hlen, -⟩ := List.getElem?_eq_some_iff.1 h
  rw [kindOf, String.toList_append, List.getElem?_append_left hlen]
  exact h

private theorem kindOf_press {kind : String} {k : Char} (h : kindOf (r#"{"t":""# ++ kind) = some k)
    (field name : String) (d : Bool) : kindOf (press kind field name d) = some k :=
  kindOf_append (kindOf_append (kindOf_append (kindOf_append (kindOf_append (kindOf_append
    (kindOf_append h _) _) _) _) _) _) _

private theorem kindOf_key {c : KeyCode} {d : Bool} {m : String} (h : key c d = some m) : kindOf m = some 'k' := by
  obtain ⟨q, -, rfl⟩ := Option.map_eq_some_iff.1 h
  exact kindOf_press (by decide) _ _ _

private theorem kindOf_mouseButton {b : MouseButton} {d : Bool} {m : String} (h : mouseButton b d = some m) :
    kindOf m = some 'b' := by
  obtain ⟨l, -, rfl⟩ := Option.map_eq_some_iff.1 h
  exact kindOf_press (by decide) _ _ _

private theorem kindOf_wheel {dy : Float32} {m : String} (h : wheel dy = some m) : kindOf m = some 'w' := by
  unfold wheel at h
  split at h
  · cases h
  · cases h
    exact kindOf_append (kindOf_append (by decide) _) _

private theorem kindOf_mouseMove (fixed4 : Float → String) (x y : Float) : kindOf (mouseMove fixed4 x y) = some 'm' :=
  kindOf_append (kindOf_append (kindOf_append (kindOf_append (by decide) _) _) _) _

/-! ### What is down for the far end -/

/-- Whether the last of these two messages in the stream is `on`. -/
def lastIs (on off : String) (ms : List String) : Bool :=
  ms.foldl (fun down m => if m = on then true else if m = off then false else down) false

private theorem lastIs_concat (on off m : String) (ms : List String) :
    lastIs on off (ms ++ [m]) = if m = on then true else if m = off then false else lastIs on off ms := by
  simp [lastIs, List.foldl_append]

/-- Messages that tell things apart, and their two edges. -/
def Distinct {α : Type} (f : α → Bool → Option String) : Prop :=
  ∀ a b d d' m, f a d = some m → f b d' = some m → a = b ∧ d = d'

private theorem distinct_key : Distinct key := by
  intro c c' d d' m h h'
  obtain ⟨q, hq, rfl⟩ := Option.map_eq_some_iff.1 h
  obtain ⟨q', hq', hm⟩ := Option.map_eq_some_iff.1 h'
  obtain ⟨rfl, rfl⟩ := press_injective hm
  exact ⟨qcode_injective hq hq', rfl⟩

private theorem distinct_mouseButton : Distinct mouseButton := by
  intro b b' d d' m h h'
  obtain ⟨l, hl, rfl⟩ := Option.map_eq_some_iff.1 h
  obtain ⟨l', hl', hm⟩ := Option.map_eq_some_iff.1 h'
  obtain ⟨rfl, rfl⟩ := press_injective hm
  exact ⟨buttonLetter_injective hl hl', rfl⟩

section Tells

variable {α : Type} [DecidableEq α] {f : α → Bool → Option String} {ms ms' : List String} {held : Finset α}

def setHeld (pressed : Bool) (a : α) (held : Finset α) : Finset α := if pressed then insert a held else held.erase a

omit [DecidableEq α] in
/-- For the far end exactly these are down, of the things that have messages. -/
def Tells (f : α → Bool → Option String) (ms : List String) (held : Finset α) : Prop :=
  ∀ a on off, f a true = some on → f a false = some off → (lastIs on off ms = true ↔ a ∈ held)

omit [DecidableEq α] in
private theorem tells_nil : Tells f [] ∅ := by
  intro a on off _ _
  simp [lastIs]

omit [DecidableEq α] in
/-- Messages about something else. -/
private theorem Tells.foreign (h : Tells f ms held) (hms' : ∀ m ∈ ms', ∀ a d, f a d ≠ some m) :
    Tells f (ms ++ ms') held := by
  induction ms' generalizing ms with
  | nil =>
    rw [List.append_nil]
    exact h
  | cons m ms' ih =>
    rw [List.append_cons]
    refine ih ?_ fun m' hm' => hms' m' (List.mem_cons_of_mem m hm')
    intro a on off hon hoff
    have hne := hms' m List.mem_cons_self a
    have hon' : m ≠ on := fun heq => hne true (heq ▸ hon)
    have hoff' : m ≠ off := fun heq => hne false (heq ▸ hoff)
    rw [lastIs_concat, if_neg hon', if_neg hoff']
    exact h a on off hon hoff

/-- One thing goes down or up. -/
private theorem Tells.edge (hf : Distinct f) (h : Tells f ms held) (b : α) (pressed : Bool) :
    Tells f (ms ++ (f b pressed).toList) (setHeld pressed b held) := by
  intro a on off hon hoff
  have hset : a ≠ b → (a ∈ setHeld pressed b held ↔ a ∈ held) := by
    intro hab
    unfold setHeld
    split <;> simp [hab]
  cases hb : f b pressed with
  | none =>
    have hab : a ≠ b := by
      rintro rfl
      cases pressed with
      | true => rw [hb] at hon; cases hon
      | false => rw [hb] at hoff; cases hoff
    rw [hset hab, Option.toList_none, List.append_nil]
    exact h a on off hon hoff
  | some m =>
    rw [Option.toList_some, lastIs_concat]
    by_cases hab : a = b
    · subst hab
      cases pressed with
      | true =>
        have hm : m = on := Option.some.inj (hb.symm.trans hon)
        simp [hm, setHeld]
      | false =>
        have hm : m = off := Option.some.inj (hb.symm.trans hoff)
        have hne : m ≠ on := by
          rintro rfl
          cases (hf a a _ _ _ hon hb).2
        simp [hm, hm ▸ hne, setHeld]
    · have hon' : m ≠ on := by
        rintro rfl
        exact hab (hf a b _ _ _ hon hb).1
      have hoff' : m ≠ off := by
        rintro rfl
        exact hab (hf a b _ _ _ hoff hb).1
      rw [if_neg hon', if_neg hoff', hset hab]
      exact h a on off hon hoff

/-- All that is held is released, in any order. -/
private theorem Tells.released (hf : Distinct f) (h : Tells f ms held) {as : List α} (has : held ⊆ as.toFinset) :
    Tells f (ms ++ as.filterMap (f · false)) ∅ := by
  induction as generalizing ms held with
  | nil =>
    rw [List.filterMap_nil, List.append_nil, ← Finset.subset_empty.1 has]
    exact h
  | cons a as ih =>
    have hcons : (a :: as).filterMap (f · false) = (f a false).toList ++ as.filterMap (f · false) := by
      cases ha : f a false <;> simp [ha]
    rw [hcons, ← List.append_assoc]
    refine ih (h.edge hf a false) ?_
    intro b hb
    obtain ⟨hne, hb⟩ := Finset.mem_erase.1 hb
    have hmem := has hb
    rw [List.mem_toFinset, List.mem_cons] at hmem
    exact List.mem_toFinset.2 (hmem.resolve_left hne)

end Tells

/-! ### The window thread -/

structure App where
  /-- The inner size of the window, once there is one. -/
  window : Option (UInt32 × UInt32)
  pressedKeys : Finset KeyCode
  pressedButtons : Finset MouseButton
  exited : Bool

inductive WindowEvent where
  | closeRequested
  | resized (width height : UInt32)
  | cursorMoved (x y : Float)
  | mouseInput (button : MouseButton) (pressed : Bool)
  | mouseWheel (dy : Float32)
  /-- `none` for a key without a code. -/
  | keyboardInput (code : Option KeyCode) (pressed repeated : Bool)
  /-- The focus is lost, and the sets are drained in this order. -/
  | focusLost (keys : List KeyCode) (buttons : List MouseButton)
  | other

namespace App

def new : App where
  window := none
  pressedKeys := ∅
  pressedButtons := ∅
  exited := false

def releaseAll (a : App) (keys : List KeyCode) (buttons : List MouseButton) : App × List String :=
  ({ a with pressedKeys := ∅, pressedButtons := ∅ },
    keys.filterMap (key · false) ++ buttons.filterMap (mouseButton · false))

/-- What an event changes, and the messages that it sends. -/
def windowEvent (fixed4 : Float → String) (a : App) : WindowEvent → App × List String
  | .closeRequested => ({ a with exited := true }, [])
  | .resized width height => ({ a with window := a.window.map fun _ => (width, height) }, [])
  | .cursorMoved x y =>
    match a.window with
    | some (width, height) =>
      if width > 0 ∧ height > 0 then (a, [mouseMove fixed4 (x / width.toFloat) (y / height.toFloat)]) else (a, [])
    | none => (a, [])
  | .mouseInput button pressed =>
    ({ a with pressedButtons := setHeld pressed button a.pressedButtons }, (mouseButton button pressed).toList)
  | .mouseWheel dy => (a, (wheel dy).toList)
  | .keyboardInput code pressed repeated =>
    match code, repeated with
    | some code, false => ({ a with pressedKeys := setHeld pressed code a.pressedKeys }, (key code pressed).toList)
    | _, _ => (a, [])
  | .focusLost keys buttons => a.releaseAll keys buttons
  | .other => (a, [])

/-- The order in which the sets are drained is one of their elements. -/
def Drains (a : App) : WindowEvent → Prop
  | .focusLost keys buttons =>
    (keys.Nodup ∧ keys.toFinset = a.pressedKeys) ∧ buttons.Nodup ∧ buttons.toFinset = a.pressedButtons
  | _ => True

instance (a : App) (e : WindowEvent) : Decidable (a.Drains e) := by
  cases e <;> unfold Drains <;> infer_instance

end App

private theorem key_foreign {m : String} {k : Char} (h : kindOf m = some k) (hk : k ≠ 'k') (c : KeyCode) (d : Bool) :
    key c d ≠ some m := by
  intro hm
  exact hk (Option.some.inj (h.symm.trans (kindOf_key hm)))

private theorem mouseButton_foreign {m : String} {k : Char} (h : kindOf m = some k) (hk : k ≠ 'b') (b : MouseButton)
    (d : Bool) : mouseButton b d ≠ some m := by
  intro hm
  exact hk (Option.some.inj (h.symm.trans (kindOf_mouseButton hm)))

/-- An event tells the far end what it changes. -/
private theorem App.windowEvent_tells (fixed4 : Float → String) {a : App} {e : WindowEvent} {ms : List String}
    (hkeys : Tells key ms a.pressedKeys) (hbuttons : Tells mouseButton ms a.pressedButtons) (he : a.Drains e) :
    Tells key (ms ++ (a.windowEvent fixed4 e).2) (a.windowEvent fixed4 e).1.pressedKeys ∧
      Tells mouseButton (ms ++ (a.windowEvent fixed4 e).2) (a.windowEvent fixed4 e).1.pressedButtons := by
  have hsilent : Tells key (ms ++ []) a.pressedKeys ∧ Tells mouseButton (ms ++ []) a.pressedButtons := by
    rw [List.append_nil]
    exact ⟨hkeys, hbuttons⟩
  cases e with
  | closeRequested => exact hsilent
  | resized width height => exact hsilent
  | cursorMoved x y =>
    unfold App.windowEvent
    simp only
    split
    · split
      · constructor
        · refine hkeys.foreign fun m hm => ?_
          rw [List.mem_singleton] at hm
          exact key_foreign (hm ▸ kindOf_mouseMove fixed4 _ _) (by decide)
        · refine hbuttons.foreign fun m hm => ?_
          rw [List.mem_singleton] at hm
          exact mouseButton_foreign (hm ▸ kindOf_mouseMove fixed4 _ _) (by decide)
      · exact hsilent
    · exact hsilent
  | mouseInput button pressed =>
    refine ⟨hkeys.foreign fun m hm => ?_, hbuttons.edge distinct_mouseButton button pressed⟩
    exact key_foreign (kindOf_mouseButton (Option.mem_toList.1 hm)) (by decide)
  | mouseWheel dy =>
    constructor
    · exact hkeys.foreign fun m hm => key_foreign (kindOf_wheel (Option.mem_toList.1 hm)) (by decide)
    · exact hbuttons.foreign fun m hm => mouseButton_foreign (kindOf_wheel (Option.mem_toList.1 hm)) (by decide)
  | keyboardInput code pressed repeated =>
    cases code with
    | none => exact hsilent
    | some code =>
      cases repeated with
      | true => exact hsilent
      | false =>
        refine ⟨hkeys.edge distinct_key code pressed, hbuttons.foreign fun m hm => ?_⟩
        exact mouseButton_foreign (kindOf_key (Option.mem_toList.1 hm)) (by decide)
  | focusLost keys buttons =>
    obtain ⟨⟨-, hdrained⟩, -, hdrained'⟩ := he
    show Tells key (ms ++ (_ ++ _)) ∅ ∧ Tells mouseButton (ms ++ (_ ++ _)) ∅
    rw [← List.append_assoc]
    constructor
    · refine (hkeys.released distinct_key (Finset.subset_of_eq hdrained.symm)).foreign fun m hm => ?_
      obtain ⟨b, -, hb⟩ := List.mem_filterMap.1 hm
      exact key_foreign (kindOf_mouseButton hb) (by decide)
    · refine Tells.released distinct_mouseButton (hbuttons.foreign fun m hm => ?_)
        (Finset.subset_of_eq hdrained'.symm)
      obtain ⟨c, -, hc⟩ := List.mem_filterMap.1 hm
      exact mouseButton_foreign (kindOf_key hc) (by decide)
  | other => exact hsilent

/-! ### Both threads -/

structure Client where
  app : App
  /-- The stream thread has been started; it has ended, and the receiver with it. -/
  started : Bool
  ended : Bool
  /-- What the window thread has sent and the stream thread has not taken. -/
  channel : List String
  /-- What has gone out on the socket. -/
  sent : List String
  /-- A message was taken and could not be sent. -/
  lost : Bool

inductive Action where
  /-- The window is made, with this inner size, or cannot be made. -/
  | resumed (size : Option (UInt32 × UInt32))
  | window (e : WindowEvent)
  /-- The stream thread takes a message and sends it. -/
  | forward (ok : Bool)
  | streamEnds

namespace Client

def new : Client where
  app := .new
  started := false
  ended := false
  channel := []
  sent := []
  lost := false

/-- What nobody can receive is dropped. -/
def sendInput (s : Client) (ms : List String) : Client :=
  if s.ended then s else { s with channel := s.channel ++ ms }

section

variable (s : Client) (ms : List String)

@[simp] theorem sendInput_app : (s.sendInput ms).app = s.app := by
  unfold sendInput
  split <;> rfl

@[simp] theorem sendInput_ended : (s.sendInput ms).ended = s.ended := by
  unfold sendInput
  split <;> rfl

@[simp] theorem sendInput_lost : (s.sendInput ms).lost = s.lost := by
  unfold sendInput
  split <;> rfl

end

def step (fixed4 : Float → String) (s : Client) : Action → Option Client
  | .resumed size =>
    if s.app.window.isSome then some s
    else
      match size with
      | some size => some { s with app := { s.app with window := some size }, started := true }
      | none => some { s with app := { s.app with exited := true } }
  | .window e =>
    if s.app.exited = false ∧ s.app.Drains e then
      let (app, ms) := s.app.windowEvent fixed4 e
      some ({ s with app }.sendInput ms)
    else none
  | .forward ok =>
    match s.channel with
    | m :: channel =>
      if s.started && !s.ended then
        some { s with channel, sent := if ok then s.sent ++ [m] else s.sent, lost := s.lost || !ok }
      else none
    | [] => none
  | .streamEnds => if s.started && !s.ended then some { s with ended := true, channel := [] } else none

/-- Once the messages on the way have arrived, what the viewer takes to be held is down for the far end. -/
structure Mirrors (s : Client) : Prop where
  keys : Tells key (s.sent ++ s.channel) s.app.pressedKeys
  buttons : Tells mouseButton (s.sent ++ s.channel) s.app.pressedButtons

variable {fixed4 : Float → String} {s s' : Client}

private theorem mirrors_new : new.Mirrors where
  keys := tells_nil
  buttons := tells_nil

theorem Mirrors.window (fixed4 : Float → String) (h : s.Mirrors) (hended : s.ended = false) {e : WindowEvent}
    (he : s.app.Drains e) :
    Mirrors ({ s with app := (s.app.windowEvent fixed4 e).1 }.sendInput (s.app.windowEvent fixed4 e).2) := by
  obtain ⟨hkeys, hbuttons⟩ := App.windowEvent_tells fixed4 h.keys h.buttons he
  unfold sendInput
  rw [if_neg (by simp [hended])]
  rw [List.append_assoc] at hkeys hbuttons
  exact ⟨hkeys, hbuttons⟩

private theorem step_mirrors {a : Action} (h : s.ended = false → s.lost = false → s.Mirrors)
    (hstep : s.step fixed4 a = some s') (hended : s'.ended = false) (hlost : s'.lost = false) : s'.Mirrors := by
  cases a with
  | resumed size =>
    simp only [step] at hstep
    split at hstep
    · cases hstep
      exact h hended hlost
    · cases size <;> cases hstep <;> exact ⟨(h hended hlost).keys, (h hended hlost).buttons⟩
  | window e =>
    simp only [step, Option.ite_none_right_eq_some, Option.some_inj] at hstep
    obtain ⟨⟨-, he⟩, rfl⟩ := hstep
    rw [sendInput_ended] at hended
    rw [sendInput_lost] at hlost
    exact (h hended hlost).window fixed4 hended he
  | forward ok =>
    simp only [step] at hstep
    split at hstep
    · rename_i m channel hchannel
      simp only [Option.ite_none_right_eq_some, Option.some_inj] at hstep
      obtain ⟨-, rfl⟩ := hstep
      obtain ⟨hs, hok⟩ := Bool.or_eq_false_iff.1 hlost
      cases ok with
      | false => cases hok
      | true =>
        obtain ⟨hkeys, hbuttons⟩ := h hended hs
        rw [hchannel, List.append_cons] at hkeys hbuttons
        exact ⟨hkeys, hbuttons⟩
    · cases hstep
  | streamEnds =>
    simp only [step, Option.ite_none_right_eq_some, Option.some_inj] at hstep
    obtain ⟨-, rfl⟩ := hstep
    cases hended

/-- In every run, as long as the stream thread lives and no send has failed: once the messages on the way have
arrived, exactly the keys and the buttons that the viewer takes to be held are down for the far end, of those that
have messages; and after a loss of the focus none is. -/
theorem held {actions : List Action} (hrun : Lts.run (step fixed4) new actions = some s) (hended : s.ended = false)
    (hlost : s.lost = false) :
    s.Mirrors ∧ ∀ keys buttons s', s.step fixed4 (.window (.focusLost keys buttons)) = some s' →
      Tells key (s'.sent ++ s'.channel) ∅ ∧ Tells mouseButton (s'.sent ++ s'.channel) ∅ := by
  have hmirrors : s.Mirrors := by
    refine Lts.Reachable.invariant (P := fun s => s.ended = false → s.lost = false → s.Mirrors) ?_ ⟨actions, hrun⟩
      (fun _ _ => mirrors_new) hended hlost
    intro s a s' hs hstep
    exact step_mirrors hs hstep
  refine ⟨hmirrors, fun keys buttons s' hstep => ?_⟩
  simp only [step, Option.ite_none_right_eq_some, Option.some_inj] at hstep
  obtain ⟨⟨-, he⟩, rfl⟩ := hstep
  have hreleased := hmirrors.window fixed4 hended he
  have hkeys := hreleased.keys
  have hbuttons := hreleased.buttons
  rw [sendInput_app] at hkeys hbuttons
  exact ⟨hkeys, hbuttons⟩

/-- The left control key, held when the focus goes. -/
theorem held_altTab : ∃ s, Lts.run (step fun _ => "0.5000") new
    [.resumed (some (640, 480)), .window (.keyboardInput (some .controlLeft) true false),
      .window (.focusLost [.controlLeft] []), .forward true, .forward true] = some s ∧
    s.sent = (key .controlLeft true).toList ++ (key .controlLeft false).toList ∧ s.channel = [] ∧ s.Mirrors := by
  refine ⟨_, rfl, rfl, rfl, ?_⟩
  exact (@held (fun _ => "0.5000") _ [.resumed (some (640, 480)),
    .window (.keyboardInput (some .controlLeft) true false), .window (.focusLost [.controlLeft] []), .forward true,
    .forward true] rfl rfl rfl).1

end Client

end Infinigpu.Input

import DoorSecurity.Lts.Runs
import DoorSecurity.Threads.Control

/-!
# The clock's interrupt around an action

`touch_thread` disables the RTC interrupt when it has taken the semaphore and enables
it before it draws the main window again. `register_delete_GUI` has a pair of its own
around the title of a card session, and the enable of the inner pair ends the outer
one. The graph here is that of `touch_thread` with these statements in it. Every action
is judged by itself: it loses its guard exactly if it opens a card session.
-/

namespace DoorSecurity
set_option autoImplicit false
open Lts

/-- `register_delete_GUI`, from the call on. -/
inductive GuiPc where
  | clear | disableIrq | title | enableIrq | showButtons
  deriving DecidableEq, Repr

inductive IrqPc where
  | touch (p : TouchPc)
  /-- `HAL_NVIC_DisableIRQ(RTC_IRQn)`, after the semaphore. -/
  | disableIrq (menu : Menu)
  /-- `HAL_NVIC_EnableIRQ(RTC_IRQn)`, before `security_door_window`. -/
  | enableIrq (menu : Menu)
  | gui (k : Session) (p : GuiPc)
  deriving DecidableEq

/-- Where control comes to before a point of `touch_thread`. -/
def TouchPc.entry : TouchPc → IrqPc
  | .testLock menu => .disableIrq menu
  | .mainWindow menu => .enableIrq menu
  | .card k .window => .gui k .clear
  | p => .touch p

/-- The next point of `touch_thread`. -/
def IrqPc.point : IrqPc → TouchPc
  | .touch p => p
  | .disableIrq menu => .testLock menu
  | .enableIrq menu => .mainWindow menu
  | .gui k _ => .card k .window

structure IrqState where
  pc : IrqPc
  /-- `RTC_IRQn` in the NVIC. -/
  enabled : Bool
  deriving DecidableEq

/-- `RTC_Init` has enabled the interrupt. -/
def IrqState.start : IrqState := ⟨.touch .scan, true⟩

inductive IrqEvent where
  | thread (l : Label)
  /-- `RTC_IRQHandler`. -/
  | clockDemo

inductive IrqStep : IrqState → IrqEvent → IrqState → Prop
  | thread {p l p' on} (edge : TouchStep p l p') : IrqStep ⟨.touch p, on⟩ (.thread l) ⟨p'.entry, on⟩
  | disable {menu on} : IrqStep ⟨.disableIrq menu, on⟩ (.thread .tau) ⟨.touch (.testLock menu), false⟩
  | enable {menu on} : IrqStep ⟨.enableIrq menu, on⟩ (.thread .tau) ⟨.touch (.mainWindow menu), true⟩
  | guiClear {k on} : IrqStep ⟨.gui k .clear, on⟩ (.thread .tau) ⟨.gui k .disableIrq, on⟩
  | guiDisable {k on} : IrqStep ⟨.gui k .disableIrq, on⟩ (.thread .tau) ⟨.gui k .title, false⟩
  | guiTitle {k on} : IrqStep ⟨.gui k .title, on⟩ (.thread .tau) ⟨.gui k .enableIrq, on⟩
  | guiEnable {k on} : IrqStep ⟨.gui k .enableIrq, on⟩ (.thread .tau) ⟨.gui k .showButtons, true⟩
  | guiShowButtons {k on} : IrqStep ⟨.gui k .showButtons, on⟩ (.thread .tau) ⟨.touch (.card k .prompt), on⟩
  | clockDemo {pc} : IrqStep ⟨pc, true⟩ .clockDemo ⟨pc, true⟩

/-- The points outside the actions. -/
def TouchPc.inAction : TouchPc → Bool
  | .scan | .beep _ | .take _ | .mainWindow _ | .release _ | .untouch | .delay => false
  | _ => true

/-- The disable has been executed and the enable at the end has not. -/
def IrqPc.inAction : IrqPc → Bool
  | .touch p => p.inAction
  | .disableIrq _ => false
  | .enableIrq _ | .gui .. => true

/-- `clock_demo` may draw. -/
def IrqState.MayDraw (s : IrqState) : Prop := ∃ s', IrqStep s .clockDemo s'

/-- In an action the interrupt is disabled and `clock_demo` does not draw, outside it is enabled. -/
def IrqState.Guarded (s : IrqState) : Prop := if s.pc.inAction then s.enabled = false ∧ ¬ s.MayDraw else s.enabled = true

/-- The password was right at Register or Delete. -/
def IrqEvent.OpensSession (e : IrqEvent) : Prop := ∃ k : Session, e = .thread (.matchPsw k.menu 1)

/-- The password has been right at Register or Delete since `touch_thread` last took the semaphore, that is, in the present action. -/
def SessionOpened : List IrqEvent → Prop := Since (fun e => e ≠ .thread (.take .matchThreadLock)) fun e _ => e.OpensSession

/-- The points of an action from the end of `register_delete_GUI`'s title on. -/
def IrqPc.afterTitle : IrqPc → Bool
  | .gui _ .showButtons | .touch (.card ..) | .enableIrq _ => true
  | _ => false

section Irq

variable {s s' : IrqState} {e : IrqEvent} {es : List IrqEvent} {p p' : TouchPc} {l : Label}

theorem mayDraw_iff : s.MayDraw ↔ s.enabled = true := by
  constructor
  · rintro ⟨s', step⟩
    cases step
    rfl
  · intro on
    obtain ⟨pc, enabled⟩ := s
    obtain rfl := on
    exact ⟨_, .clockDemo⟩

theorem guarded_iff : s.Guarded ↔ s.enabled = !s.pc.inAction := by
  unfold IrqState.Guarded
  rw [mayDraw_iff]
  cases s.pc.inAction <;> simp

/-- The statements of the graph are those of `touch_thread`, and others in between. -/
theorem IrqStep.path (step : IrqStep s e s') : s'.pc.point = s.pc.point ∨ ∃ l, e = .thread l ∧ TouchStep s.pc.point l s'.pc.point := by
  cases step with
  | @thread p l p' on edge =>
    have next : p'.entry.point = p' := by
      unfold TouchPc.entry
      split <;> rfl
    exact .inr ⟨l, rfl, by rw [next]; exact edge⟩
  | guiShowButtons => exact .inr ⟨.tau, rfl, .card .window⟩
  | _ => exact .inl rfl

/-- Only the disable enters an action and only the enable ends it. -/
theorem TouchStep.inAction_entry (edge : TouchStep p l p') : p'.entry.inAction = p.inAction := by
  cases edge with
  | @verified menu => cases menu <;> rfl
  | @card k q l q' edge => cases q' <;> rfl
  | _ => rfl

/-- The points from the right password at Register or Delete to the end of the session. -/
def TouchPc.inSession : TouchPc → Bool
  | .verified .register | .verified .delete | .card .. => true
  | _ => false

def IrqPc.inSession : IrqPc → Bool
  | .touch p => p.inSession
  | .gui .. => true
  | _ => false

/-- The points of an action that no session has come to, from the semaphore to the final enable. -/
def IrqPc.beforeSession : IrqPc → Bool
  | .touch p => p.inAction && !p.inSession
  | .disableIrq _ => true
  | _ => false

/-- A card session takes no semaphore. -/
theorem CardStep.ne_take {k : Session} {q : CardPc} {q' : Option CardPc} (walks : CardStep k q l q') (sem : Sem) : l ≠ .take sem := by
  rintro rfl
  cases walks with
  | readId reads | readOk reads | readError reads => cases reads

/-- A session is entered by the right password, and not from a take. -/
theorem TouchStep.inSession_entry (edge : TouchStep p l p') (inside : p'.entry.inSession = true) :
    (∃ k : Session, l = .matchPsw k.menu 1) ∨ (p.inSession = true ∧ l ≠ .take .matchThreadLock) := by
  cases edge with
  | @right menu =>
    cases menu with
    | register => exact .inl ⟨.registerNewTag, rfl⟩
    | delete => exact .inl ⟨.deleteRegisteredTag, rfl⟩
    | setPsw => contradiction
  | @verified menu =>
    cases menu with
    | register | delete => exact .inr ⟨rfl, nofun⟩
    | setPsw => contradiction
  | card walks => exact .inr ⟨rfl, walks.ne_take .matchThreadLock⟩
  | _ => contradiction

/-- What comes before a session begins with the take, and opens none. -/
theorem TouchStep.beforeSession_entry (edge : TouchStep p l p') (before : p'.entry.beforeSession = true) :
    (∀ k : Session, l ≠ .matchPsw k.menu 1) ∧ (l = .take .matchThreadLock ∨ (IrqPc.touch p).beforeSession = true) := by
  cases edge with
  | @right menu =>
    cases menu with
    | register | delete => contradiction
    | setPsw => exact ⟨by rintro ⟨⟩ ⟨⟩, .inr rfl⟩
  | @verified menu =>
    cases menu with
    | register | delete => contradiction
    | setPsw => exact ⟨nofun, .inr rfl⟩
  | take => exact ⟨nofun, .inl rfl⟩
  | wrong => exact ⟨fun k same => absurd (Label.matchPsw.inj same).2 (by decide), .inr rfl⟩
  | @card k q l q' edge => cases q' <;> contradiction
  | unlocked | locked | passwordSet | wrongEntry | exceeded | withinLimit | clearErrCnt | clearLock | wakeCountdown | timerStart =>
    exact ⟨nofun, .inr rfl⟩
  | _ => contradiction

/-- After a title there is a session's end, or the end of an action without one. -/
theorem TouchStep.afterTitle_entry (edge : TouchStep p l p') (action : p.inAction = true) (after : p'.entry.afterTitle = true) :
    (∃ k q, p = .card k q) ∨ ((IrqPc.touch p).beforeSession = true ∧ ∀ k : Session, l ≠ .matchPsw k.menu 1) := by
  cases edge with
  | @verified menu => cases menu <;> contradiction
  | card | cardDone => exact .inl ⟨_, _, rfl⟩
  | cancelled notRight =>
    exact .inr ⟨rfl, fun k same => notRight (Label.matchPsw.inj same).2⟩
  | passwordKept | settingShown | wrongShown | downCount => exact .inr ⟨rfl, nofun⟩
  | _ => contradiction

/-- The interrupt is enabled outside the actions, and inside from the title of a session on. -/
structure IrqState.Sound (es : List IrqEvent) (s : IrqState) : Prop where
  opened : s.pc.inSession = true → SessionOpened es
  before : s.pc.beforeSession = true → ¬ SessionOpened es
  enabled : s.enabled = true ↔ s.pc.inAction = false ∨ (SessionOpened es ∧ s.pc.afterTitle = true)

/-- What neither begins an action nor opens a session. -/
theorem sessionOpened_cons (begins : e ≠ .thread (.take .matchThreadLock)) (opens : ¬ e.OpensSession) :
    SessionOpened (e :: es) ↔ SessionOpened es := by
  rw [SessionOpened, since_cons, or_iff_right opens, and_iff_right begins]

/-- The statements of the interrupt and of `register_delete_GUI`. -/
theorem sessionOpened_tau : SessionOpened (.thread .tau :: es) ↔ SessionOpened es :=
  sessionOpened_cons nofun (by rintro ⟨⟨⟩, ⟨⟩⟩)

/-- **A statement of `touch_thread`.** -/
theorem IrqState.Sound.thread {on : Bool} (sound : IrqState.Sound es ⟨.touch p, on⟩) (edge : TouchStep p l p') :
    IrqState.Sound (.thread l :: es) ⟨p'.entry, on⟩ := by
  refine ⟨fun inside => ?_, fun outside => ?_, ?_⟩
  · rcases edge.inSession_entry inside with ⟨k, rfl⟩ | ⟨was, begins⟩
    · exact .now ⟨k, rfl⟩
    · exact (sound.opened was).still fun same => begins (IrqEvent.thread.inj same)
  · obtain ⟨opens, begins | was⟩ := edge.beforeSession_entry outside
    · rintro (⟨k, now⟩ | ⟨kept, -⟩)
      · exact opens k (IrqEvent.thread.inj now)
      · exact kept (congrArg IrqEvent.thread begins)
    · rintro (⟨k, now⟩ | ⟨-, past⟩)
      · exact opens k (IrqEvent.thread.inj now)
      · exact sound.before was past
  · refine sound.enabled.trans ?_
    show p.inAction = false ∨ _ ↔ p'.entry.inAction = false ∨ _
    rw [edge.inAction_entry]
    cases action : p.inAction with
    | false => exact iff_of_true (.inl rfl) (.inl rfl)
    | true =>
      simp only [Bool.true_eq_false, false_or]
      constructor
      · rintro ⟨past, after⟩
        cases edge with
        | @card k q l q' walks =>
          refine ⟨past.still fun same => walks.ne_take .matchThreadLock (IrqEvent.thread.inj same), ?_⟩
          cases walks <;> rfl
        | cardDone walks =>
          cases walks
          exact ⟨sessionOpened_tau.mpr past, rfl⟩
        | _ => contradiction
      · rintro ⟨past, after⟩
        rcases edge.afterTitle_entry action after with ⟨k, q, rfl⟩ | ⟨was, opens⟩
        · exact ⟨sound.opened rfl, rfl⟩
        · rcases past with ⟨k, now⟩ | ⟨-, past⟩
          · exact absurd (IrqEvent.thread.inj now) (opens k)
          · exact absurd past (sound.before was)

/-- **One statement, or the interrupt.** -/
theorem IrqState.Sound.step (sound : IrqState.Sound es s) (step : IrqStep s e s') : IrqState.Sound (e :: es) s' := by
  cases step with
  | thread edge => exact sound.thread edge
  | disable =>
    have closed := sessionOpened_tau.not.mpr (sound.before rfl)
    exact ⟨nofun, fun _ => closed, iff_of_false Bool.false_ne_true (by simp [IrqPc.inAction, TouchPc.inAction, IrqPc.afterTitle])⟩
  | enable => exact ⟨nofun, nofun, iff_of_true rfl (.inl rfl)⟩
  | guiClear =>
    exact ⟨fun _ => sessionOpened_tau.mpr (sound.opened rfl), nofun, sound.enabled.trans (by simp [IrqPc.inAction, IrqPc.afterTitle])⟩
  | guiDisable =>
    exact ⟨fun _ => sessionOpened_tau.mpr (sound.opened rfl), nofun, iff_of_false Bool.false_ne_true (by simp [IrqPc.inAction, IrqPc.afterTitle])⟩
  | guiTitle =>
    exact ⟨fun _ => sessionOpened_tau.mpr (sound.opened rfl), nofun, sound.enabled.trans (by simp [IrqPc.inAction, IrqPc.afterTitle])⟩
  | guiEnable =>
    have opened := sessionOpened_tau.mpr (sound.opened rfl)
    exact ⟨fun _ => opened, nofun, iff_of_true rfl (.inr ⟨opened, rfl⟩)⟩
  | guiShowButtons =>
    have opened := sessionOpened_tau.mpr (sound.opened rfl)
    exact ⟨fun _ => opened, nofun, sound.enabled.trans (iff_of_true (.inr ⟨sound.opened rfl, rfl⟩) (.inr ⟨opened, rfl⟩))⟩
  | clockDemo =>
    have same : SessionOpened (.clockDemo :: es) ↔ SessionOpened es := sessionOpened_cons nofun (by rintro ⟨k, ⟨⟩⟩)
    exact ⟨fun inside => same.mpr (sound.opened inside), fun outside => same.not.mpr (sound.before outside), by rw [same]; exact sound.enabled⟩

/-- Outside an action there is no title. -/
theorem IrqPc.inAction_of_afterTitle {pc : IrqPc} (after : pc.afterTitle = true) : pc.inAction = true := by
  unfold afterTitle at after
  split at after <;> first | rfl | contradiction

end Irq

/-- **In every run**, whatever the earlier actions did: a state is guarded exactly if the present action has not opened a
card session and come past its title; and outside the actions the interrupt is enabled. -/
theorem irq_guarded_iff {es : List IrqEvent} {s : IrqState} (run : Runs IrqStep .start es s) :
    (s.Guarded ↔ ¬ (SessionOpened es ∧ s.pc.afterTitle = true)) ∧ (s.pc.inAction = false → s.enabled = true) := by
  have initially : IrqState.Sound [] .start := ⟨nofun, nofun, iff_of_true rfl (.inl rfl)⟩
  have sound : s.Sound es := run.invariant (I := fun es s => s.Sound es) initially fun sound step => sound.step step
  refine ⟨?_, fun outside => sound.enabled.mpr (.inl outside)⟩
  rw [guarded_iff]
  cases action : s.pc.inAction with
  | false =>
    refine iff_of_true (sound.enabled.mpr (.inl action)) ?_
    rintro ⟨-, after⟩
    rw [IrqPc.inAction_of_afterTitle after] at action
    contradiction
  | true =>
    rw [Bool.not_true, ← Bool.not_eq_true, sound.enabled, action]
    simp

section Sessions

variable {es : List IrqEvent} {p p' : TouchPc} {l : Label} {on : Bool}

/-- The points in front of which a statement for the interrupt stands. -/
theorem TouchPc.entry_cases (p : TouchPc) :
    p.entry = .touch p ∨ (∃ menu, p = .testLock menu) ∨ (∃ menu, p = .mainWindow menu) ∨ ∃ k, p = .card k .window := by
  unfold TouchPc.entry
  split
  · exact .inr (.inl ⟨_, rfl⟩)
  · exact .inr (.inr (.inl ⟨_, rfl⟩))
  · exact .inr (.inr (.inr ⟨_, rfl⟩))
  · exact .inl rfl

/-- `register_delete_GUI` goes through and leaves the interrupt enabled. -/
theorem run_gui {k : Session} (run : Runs IrqStep .start es ⟨.gui k .clear, on⟩) :
    ∃ es', Runs IrqStep .start (es' ++ es) ⟨.touch (.card k .prompt), true⟩ := by
  have shown := ((((run.snoc .guiClear).snoc .guiDisable).snoc .guiTitle).snoc .guiEnable).snoc .guiShowButtons
  exact ⟨[_, _, _, _, _], shown⟩

theorem follow_edge (run : Runs IrqStep .start es ⟨p.entry, on⟩) (edge : TouchStep p l p') :
    ∃ es' on', Runs IrqStep .start es' ⟨p'.entry, on'⟩ := by
  rcases p.entry_cases with here | ⟨menu, rfl⟩ | ⟨menu, rfl⟩ | ⟨k, rfl⟩
  · rw [here] at run
    exact ⟨_, _, run.snoc (.thread edge)⟩
  · exact ⟨_, _, (run.snoc .disable).snoc (.thread edge)⟩
  · exact ⟨_, _, (run.snoc .enable).snoc (.thread edge)⟩
  · cases edge with
    | card edge =>
      cases edge
      obtain ⟨es', shown⟩ := run_gui run
      exact ⟨_, _, shown⟩
    | cardDone edge => cases edge

/-- Every path of `touch_thread` is one of this graph. -/
theorem exists_irqRun {ls : List Label} (run : Runs TouchStep .scan ls p) : ∃ es on, Runs IrqStep .start es ⟨p.entry, on⟩ := by
  induction run with
  | nil => exact ⟨[], true, .nil⟩
  | snoc before edge ih =>
    obtain ⟨es, on, run⟩ := ih
    exact follow_edge run edge

/-- **Every session is shown with the interrupt enabled**: a right password at Register or Delete comes to the prompt
for a card, where `clock_demo` may draw. -/
theorem session_not_guarded {k : Session} (run : Runs IrqStep .start es ⟨.touch (.matchPsw k.menu), on⟩) :
    ∃ es', Runs IrqStep .start (es' ++ .thread (.matchPsw k.menu 1) :: es) ⟨.touch (.card k .prompt), true⟩ ∧
      ¬ IrqState.Guarded ⟨.touch (.card k .prompt), true⟩ := by
  have opened : Runs IrqStep .start (.thread (.clearErrCnt k.menu) :: .thread (.matchPsw k.menu 1) :: es) ⟨.gui k .clear, on⟩ := by
    cases k <;> exact (run.snoc (.thread .right)).snoc (.thread .verified)
  obtain ⟨es', shown⟩ := run_gui opened
  refine ⟨es' ++ [.thread (.clearErrCnt k.menu)], ?_, fun guarded => ?_⟩
  · rw [List.append_assoc]
    exact shown
  · have flag : true = false := guarded_iff.mp guarded
    contradiction

end Sessions

/-- A card session, and after it the password action from the press to the keypad: it is guarded, whatever was before. -/
theorem irq_guarded_setPsw : ∃ es s, Runs IrqStep .start es s ∧ .thread (.matchPsw .register 1) ∈ es ∧
    s.pc = .touch (.matchPsw .setPsw) ∧ s.Guarded := by
  have initially : Runs IrqStep .start [] .start := .nil
  have taken := ((initially.snoc (.thread (.pressed .register))).snoc (.thread .beep)).snoc (.thread .take)
  have asked := (taken.snoc .disable).snoc (.thread .unlocked)
  obtain ⟨es', shown⟩ := run_gui ((asked.snoc (.thread .right)).snoc (.thread .verified))
  have back := ((shown.snoc (.thread (.card .prompt))).snoc (.thread (.card .pollPressed))).snoc (.thread (.card .pressedBack))
  have left := ((back.snoc (.thread (.cardDone .mainWindow))).snoc .enable).snoc (.thread .mainWindow)
  have idle := ((left.snoc (.thread .release)).snoc (.thread .untouched)).snoc (.thread .delay)
  have again := ((idle.snoc (.thread (.pressed .setPsw))).snoc (.thread .beep)).snoc (.thread .take)
  have keypad := (again.snoc .disable).snoc (.thread .unlocked)
  refine ⟨_, _, keypad, by simp, rfl, (irq_guarded_iff keypad).1.mpr ?_⟩
  rintro ⟨-, after⟩
  contradiction

/-- Register with the right password: the clock is drawn over the prompt for a card. -/
theorem clock_over_register :
    ∃ es s, Runs IrqStep .start es s ∧ s = ⟨.touch (.card .registerNewTag .prompt), true⟩ ∧
      s.pc.inAction = true ∧ s.MayDraw ∧ ¬ s.Guarded := by
  have initially : Runs IrqStep .start [] .start := .nil
  have pressed := initially.snoc (.thread (.pressed .register))
  have taken := (pressed.snoc (.thread .beep)).snoc (.thread .take)
  have asked := (taken.snoc .disable).snoc (.thread .unlocked)
  obtain ⟨es', shown⟩ := run_gui ((asked.snoc (.thread .right)).snoc (.thread .verified))
  exact ⟨_, _, shown, rfl, rfl, mayDraw_iff.mpr rfl, fun guarded => absurd (guarded_iff.mp guarded) (by decide)⟩

end DoorSecurity

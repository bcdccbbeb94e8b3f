import Web3PiUps.ArkivClaim

/-! The menu of `oled_menu.c`. It runs in the receive task alone: a button event moves it
and has the task send prompts, and a trust result with its nonce closes it. -/
namespace Web3PiUps.OledMenu
open WupsProtocol ArkivEntity ArkivClaim

inductive Screen where
  | root
  | mode
  | factoryReset
  | regenArkiv
  | arkivWallet
  | arkivAddr
  | arkivBalance
  | httpKey
  | httpRegen
  deriving DecidableEq, Repr

structure Menu where
  active : Bool
  screen : Screen
  cursor : Nat
  nonce : UInt32
  deriving DecidableEq, Repr

def Menu.boot : Menu := ⟨false,.root,0,0⟩

def screenItemCount : Screen → Nat
  | .root => 6
  | .mode => 4
  | .factoryReset => 2
  | .regenArkiv => 2
  | .arkivWallet => 4
  | .arkivAddr => 1
  | .arkivBalance => 1
  | .httpKey => 2
  | .httpRegen => 2

/-- One call of `push_screen` or `push_transition_screen`. -/
inductive Push where
  | screen
  | transition (text : Bytes)
  deriving DecidableEq, Repr

def oledMenuClose (menu : Menu) : Menu := { menu with active := false }

def goTo (menu : Menu) (screen : Screen) (cursor : Nat) : Menu × List Push :=
  ({ menu with screen := screen, cursor := cursor },[.screen])

/-- `activate_current`; `regenFails` is the answer of `cmdauth_arkiv_regenerate_wallet`. The
actions that reboot end the run, so what follows their prompt here is never sent. -/
def activateCurrent (menu : Menu) (regenFails : Bool) : Menu × List Push :=
  match menu.screen with
  | .root =>
    match menu.cursor with
    | 0 => (oledMenuClose menu,[])
    | 1 => goTo menu .mode 0
    | 2 => goTo menu .httpKey 0
    | 3 => goTo menu .factoryReset 0
    | 4 => goTo menu .arkivWallet 0
    | 5 => (oledMenuClose menu,[])
    | _ => (menu,[])
  | .mode =>
    match menu.cursor with
    | 0 => (menu,[.transition (ascii "SWITCHING\nTO MQTT\nPlease\nwait...")])
    | 1 => (menu,[.transition (ascii "SWITCHING\nTO ARKIV\nPlease\nwait...")])
    | 2 => (menu,[.transition (ascii "SWITCHING\nTO HTTP\nPlease\nwait...")])
    | 3 => goTo menu .root 1
    | _ => (menu,[])
  | .factoryReset =>
    if menu.cursor = 0 then goTo menu .root 2
    else (menu,[.transition (ascii "FACTORY\nRESET\nPlease\nwait...")])
  | .regenArkiv =>
    if menu.cursor = 0 then goTo menu .arkivWallet 2
    else (menu,.transition (ascii "REGEN\nWALLET\nPlease\nwait...")::
      if regenFails then [.transition (ascii "REGEN\nFAILED\nRetry?"),.screen] else [])
  | .arkivWallet =>
    match menu.cursor with
    | 0 => goTo menu .arkivAddr 0
    | 1 => goTo menu .arkivBalance 0
    | 2 => goTo menu .regenArkiv 0
    | 3 => goTo menu .root 4
    | _ => (menu,[])
  | .arkivAddr => goTo menu .arkivWallet 0
  | .arkivBalance => goTo menu .arkivWallet 1
  | .httpKey => if menu.cursor = 0 then goTo menu .root 2 else goTo menu .httpRegen 0
  | .httpRegen => goTo menu .httpKey 0

/-- A `ui.button_event` with what the menu reads from elsewhere while it handles it: the
fresh nonce, the answer of the wallet's regeneration, and the text of each page. -/
structure ButtonEvent where
  button : UInt8
  action : UInt8
  nonce : UInt32
  regenFails : Bool
  text : Menu → Bytes

def ButtonEvent.opens (e : ButtonEvent) : Bool := e.button = 0xFF ∧ e.action = 2

def oledMenuOpen (nonce : UInt32) : Menu × List Push := (⟨true,.root,0,nonce⟩,[.screen])

def oledMenuOnButtonEvent (menu : Menu) (e : ButtonEvent) : Menu × List Push :=
  if e.opens then oledMenuOpen e.nonce
  else if menu.active = false then (menu,[])
  else if e.action ≠ 0 then (menu,[])
  else if menu.screen = .arkivAddr then goTo menu .arkivWallet 0
  else if menu.screen = .arkivBalance then goTo menu .arkivWallet 1
  else if e.button = 0 then goTo menu menu.screen ((menu.cursor+1) % screenItemCount menu.screen)
  else if e.button = 1 then activateCurrent menu e.regenFails
  else (menu,[])

/-- The call of `wups_link_trust_prompt` that a push makes. -/
def pushPrompt (menu : Menu) (text : Menu → Bytes) : Push → Prompt
  | .screen =>
    ⟨if menu.screen = .arkivAddr then trustModeWallet else trustModeMenu,exitHoldSecs,menu.nonce,text menu⟩
  | .transition text => ⟨trustModeMenu,exitHoldSecs,menu.nonce,text⟩

/-- The menu after a button event, and the prompts the receive task then sends. -/
def buttonPrompts (menu : Menu) (e : ButtonEvent) : Menu × List Prompt :=
  let (menu,pushes) := oledMenuOnButtonEvent menu e
  (menu,if menu.active then pushes.map (pushPrompt menu e.text) else [])

def oledMenuOnTrustResult (menu : Menu) (nonce : UInt32) : Menu :=
  if menu.active = false then menu
  else if nonce ≠ menu.nonce then menu
  else oledMenuClose menu

theorem pushArms (menu : Menu) (text : Menu → Bytes) (push : Push) :
    (pushPrompt menu text push).arms = true ↔ push = .screen ∧ menu.screen = .arkivAddr := by
  have wallet : exitHoldSecs > 0 ∧ trustModeWallet ≠ trustModeMenu := by decide
  cases push with
  | screen => by_cases page : menu.screen = .arkivAddr <;> simp [pushPrompt,Prompt.arms,page,wallet]
  | transition text => simp [pushPrompt,Prompt.arms]

end Web3PiUps.OledMenu

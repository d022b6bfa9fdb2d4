import RType.Lib.Decimal
import RType.Lib.Lines
import RType.Spec.RTypeClient

/-!
# The configuration (`Client/ConfigManager.cpp`, `Client/ClientManager.cpp`, `Client/Renderer.cpp`)

`ConfigManager` reads the configuration from a file and writes it there; `ClientManager::run`
shows the two menus that edit it, the username and the key bindings, and writes it when a menu
is left. A game edits a copy of the key bindings, and reads the movement keys through it.
What the menus draw is left out, and so are the screens of `run` that leave the configuration
alone.
-/

namespace RType

open Lines

/-- A `std::map<std::string, int>`, from actions to key codes. -/
abbrev Keybinds := Std.TreeMap (List UInt8) Int32

/-- `Config` -/
structure Config where
  username : List UInt8
  keybinds : Keybinds

namespace ConfigManager

/-! ## The file -/

/-- `"username"` -/
def usernameKey : List UInt8 := [117, 115, 101, 114, 110, 97, 109, 101]

/-- `"UP"` -/
def upAction : List UInt8 := [85, 80]

/-- `"DOWN"` -/
def downAction : List UInt8 := [68, 79, 87, 78]

/-- `"LEFT"` -/
def leftAction : List UInt8 := [76, 69, 70, 84]

/-- `"RIGHT"` -/
def rightAction : List UInt8 := [82, 73, 71, 72, 84]

/-- `"PRESSED"` -/
def pressedAction : List UInt8 := [80, 82, 69, 83, 83, 69, 68]

/-- The key bindings that `loadConfig` starts from. -/
def defaultKeybinds : List (List UInt8 × Int32) :=
  [(upAction, 87), (downAction, 83), (leftAction, 65), (rightAction, 68), (pressedAction, 32)]

/-- What `loadConfig` starts from. -/
def defaults : Config where
  username := []
  keybinds := defaultKeybinds.foldl (fun keybinds pair => keybinds.insert pair.1 pair.2) ∅

/-- `std::stoi`; nothing where it throws. -/
def stoi (value : List UInt8) : Option Int32 :=
  match Decimal.scan value with
  | some n => if -2 ^ 31 ≤ n ∧ n < 2 ^ 31 then some (Int32.ofInt n) else none
  | none => none

/-- One line of `loadConfig`: a key, `=` and a value. `stoi` throws before there is an entry. -/
def readLine (config : Config) (line : List UInt8) : Config :=
  match getline 61 ⟨line, false⟩ with
  | none => config
  | some (key, ss) =>
    match getline 10 ss with
    | none => config
    | some (value, _) =>
      if key = usernameKey then { config with username := value }
      else
        match stoi value with
        | some n => { config with keybinds := config.keybinds.insert key n }
        | none => config

/-- `loadConfig`, from what the file holds; without one it cannot be opened. -/
def loadConfig : Option (List UInt8) → Config
  | none => defaults
  | some file => (lines 10 ⟨file, false⟩).foldl readLine defaults

/-- `saveConfig`: what the file holds then. -/
def saveConfig (config : Config) : List UInt8 :=
  usernameKey ++ 61 :: config.username ++ [10] ++
    config.keybinds.toList.flatMap fun pair => pair.1 ++ 61 :: Decimal.print pair.2.toInt ++ [10]

end ConfigManager

open ConfigManager

/-- The movement keys that `handleInput` reads; nothing where `_keybinds.at` throws. -/
def Keys.bound (k : Keys) (keybinds : Keybinds) (isKeyDown : Int32 → Bool) : Option Keys := do
  let upKey ← keybinds[upAction]?
  let downKey ← keybinds[downAction]?
  let leftKey ← keybinds[leftAction]?
  let rightKey ← keybinds[rightAction]?
  pure { k with
    up := isKeyDown upKey, down := isKeyDown downKey
    left := isKeyDown leftKey, right := isKeyDown rightKey }

namespace Renderer

/-! ## The menus -/

/-- What `drawUsernameInput` reads in one frame: the characters that `GetCharPressed` returns,
and two keys. -/
structure UsernameFrame where
  chars : List Int32
  backspace : Bool
  enter : Bool

/-- One character of `drawUsernameInput`. -/
def typeUsername (username : List UInt8) (key : Int32) : List UInt8 :=
  if 32 ≤ key ∧ key ≤ 125 ∧ username.length < 31 then username ++ [key.toInt8.toUInt8] else username

/-- `drawUsernameInput`: the username, and whether it is confirmed. -/
def drawUsernameInput (username : List UInt8) (f : UsernameFrame) : List UInt8 × Bool :=
  let typed := (f.chars.takeWhile (0 < ·)).foldl typeUsername username
  let username := if f.backspace then typed.dropLast else typed
  (username, f.enter && username ≠ [])

/-- What `drawOptionsMenu` edits: the key bindings, and `_actionToRemap`. -/
structure OptionsMenu where
  keybinds : Keybinds
  actionToRemap : Option (List UInt8)

/-- What `drawOptionsMenu` reads in one frame: a click on the button back, the key of
`GetKeyPressed`, and clicks on the change button of an action. -/
structure OptionsFrame where
  back : Bool
  key : Int32
  change : List UInt8 → Bool

/-- `drawOptionsMenu`: the menu after the frame, and whether it is left. -/
def drawOptionsMenu (m : OptionsMenu) (f : OptionsFrame) : OptionsMenu × Bool :=
  let backPressed := f.back && m.actionToRemap.isNone
  match if f.back then none else m.actionToRemap with
  | some action =>
    if f.key = 0 then (⟨m.keybinds, some action⟩, backPressed)
    else (⟨m.keybinds.insert action f.key, none⟩, backPressed)
  | none =>
    (⟨m.keybinds, m.keybinds.keys.foldl (fun remap action => if f.change action then some action else remap) none⟩,
      backPressed)

end Renderer

open Renderer

/-- The fields of `ClientManager` that the menus use, and what the file holds. -/
structure Menus where
  config : Config
  actionToRemap : Option (List UInt8)
  file : Option (List UInt8)

/-- One frame of a menu. -/
inductive MenuFrame
  | username (f : UsernameFrame)
  | options (f : OptionsFrame)

namespace Menus

/-- The constructor of `ClientManager`. -/
def new (file : Option (List UInt8)) : Menus := ⟨loadConfig file, none, file⟩

/-- The cases `USERNAME_INPUT` and `OPTIONS` of `run`. -/
def step (m : Menus) : MenuFrame → Menus
  | .username f =>
    let (username, confirmed) := drawUsernameInput m.config.username f
    let config := { m.config with username }
    { m with config, file := if confirmed then some (saveConfig config) else m.file }
  | .options f =>
    let (menu, back) := drawOptionsMenu ⟨m.config.keybinds, m.actionToRemap⟩ f
    let config := { m.config with keybinds := menu.keybinds }
    ⟨config, menu.actionToRemap, if back then some (saveConfig config) else m.file⟩

/-- The menus, frame after frame, in any order. -/
def run (m : Menus) (frames : List MenuFrame) : Menus := frames.foldl step m

end Menus

end RType

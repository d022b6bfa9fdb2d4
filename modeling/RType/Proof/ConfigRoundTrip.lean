import Mathlib.Data.List.Induction
import RType.Lib.Maps
import RType.Spec.ConfigManager

/-!
# The configuration comes back

`loadConfig` takes any bytes, but what it makes of them is `Writable`: no newline anywhere, no
`=` in an action, no action called username, and the five actions it starts from. The menus
keep that, and a writable configuration is read back from what is written for it.

* `Writable.loadConfig`, `Writable.edit`: what a file and an edit give is writable.
* `config_roundTrip`: whatever the file held and whatever is edited, the configuration that is
  written is read back, and the movement keys are there.
* `Menus.run_edits`: the menus make such edits only.
* `Menus.run_file`: the file always reads back as the configuration of some frame so far.
-/

namespace RType

open Lines ConfigManager Renderer

/-! ## Writable configurations -/

/-- The two configurations are equal, as `==` compares them. -/
def Config.Same (c c' : Config) : Prop := c.username = c'.username ∧ c.keybinds.toList = c'.keybinds.toList

/-- An action that a line of the file can name. -/
def Nameable (action : List UInt8) : Prop := 10 ∉ action ∧ 61 ∉ action ∧ action ≠ usernameKey

/-- What `loadConfig` gives and the menus keep. -/
structure Config.Writable (c : Config) : Prop where
  username : 10 ∉ c.username
  actions : ∀ action ∈ c.keybinds, Nameable action
  present : ∀ pair ∈ defaultKeybinds, pair.1 ∈ c.keybinds

theorem mem_defaults_iff (action : List UInt8) :
    action ∈ defaults.keybinds ↔ ∃ pair ∈ defaultKeybinds, pair.1 = action := by
  have hempty : action ∉ (∅ : Keybinds) := Std.TreeMap.not_mem_emptyc
  unfold defaults
  rw [Maps.mem_foldl_insert_iff]
  simp only [hempty, or_false]

/-- What a line does: nothing, or it gives the username, or one action its key. -/
theorem readLine_cases (c : Config) {line : List UInt8} (hline : 10 ∉ line) :
    readLine c line = c ∨ (∃ value : List UInt8, 10 ∉ value ∧ readLine c line = { c with username := value }) ∨
      ∃ action key, Nameable action ∧ readLine c line = { c with keybinds := c.keybinds.insert action key } := by
  unfold readLine
  split
  · exact .inl rfl
  · rename_i action ss haction
    split
    · exact .inl rfl
    · rename_i value rest hvalue
      split
      · exact .inr (.inl ⟨value, (getline_spec hvalue).1, rfl⟩)
      · rename_i hname
        obtain ⟨hequals, hfront, -⟩ := getline_spec haction
        have hnewline : 10 ∉ action := fun hmem => hline (hfront.subset hmem)
        split
        · rename_i key hkey
          exact .inr (.inr ⟨action, key, ⟨hnewline, hequals, hname⟩, rfl⟩)
        · exact .inl rfl

namespace Config.Writable

variable {c : Config}

theorem initial : ConfigManager.defaults.Writable where
  username := List.not_mem_nil
  actions action hmem := by
    obtain ⟨pair, hpair, rfl⟩ := (mem_defaults_iff action).1 hmem
    have hall : ∀ pair ∈ defaultKeybinds, 10 ∉ pair.1 ∧ 61 ∉ pair.1 ∧ pair.1 ≠ usernameKey := by decide
    exact hall pair hpair
  present pair hpair := (mem_defaults_iff pair.1).2 ⟨pair, hpair, rfl⟩

theorem named (h : c.Writable) {username : List UInt8} (hname : 10 ∉ username) :
    Writable { c with username } where
  username := hname
  actions := h.actions
  present := h.present

theorem mapped (h : c.Writable) {action : List UInt8} (haction : Nameable action) (key : Int32) :
    Writable { c with keybinds := c.keybinds.insert action key } where
  username := h.username
  actions other hmem := by
    rcases Std.TreeMap.mem_insert.1 hmem with hcmp | hold
    · rw [← Std.LawfulEqCmp.compare_eq_iff_eq.1 hcmp]
      exact haction
    · exact h.actions other hold
  present pair hpair := Std.TreeMap.mem_insert.2 (.inr (h.present pair hpair))

theorem readLine (h : c.Writable) {line : List UInt8} (hline : 10 ∉ line) :
    (ConfigManager.readLine c line).Writable := by
  rcases readLine_cases c hline with heq | ⟨value, hvalue, heq⟩ | ⟨action, key, haction, heq⟩
  · rw [heq]
    exact h
  · rw [heq]
    exact h.named hvalue
  · rw [heq]
    exact h.mapped haction key

theorem readLines (h : c.Writable) {ls : List (List UInt8)} (hls : ∀ line ∈ ls, 10 ∉ line) :
    (ls.foldl ConfigManager.readLine c).Writable := by
  induction ls generalizing c with
  | nil => exact h
  | cons line ls ih =>
    rw [List.foldl_cons]
    exact ih (h.readLine (hls line List.mem_cons_self)) fun l hl => hls l (List.mem_cons_of_mem _ hl)

/-- **Whatever the file holds, the configuration is writable.** -/
theorem loadConfig (file : Option (List UInt8)) : (ConfigManager.loadConfig file).Writable := by
  cases file with
  | none => exact initial
  | some bytes => exact initial.readLines (not_mem_of_mem_lines _)

end Config.Writable

/-! ## The round trip -/

/-- The line of an action. -/
def entry (pair : List UInt8 × Int32) : List UInt8 := pair.1 ++ 61 :: Decimal.print pair.2.toInt

/-- The lines that are written. -/
def Config.entries (c : Config) : List (List UInt8) :=
  (usernameKey ++ 61 :: c.username) :: c.keybinds.toList.map entry

theorem saveConfig_eq (c : Config) : saveConfig c = c.entries.flatMap (· ++ [10]) := by
  unfold saveConfig Config.entries
  rw [List.flatMap_cons, List.flatMap_map]
  rfl

/-- Printed numbers have no newline. -/
theorem newline_notMem_print (n : ℤ) : 10 ∉ Decimal.print n := by
  intro hmem
  rcases Decimal.mem_print hmem with h | h
  · exact absurd h (by decide)
  · exact absurd h (by decide)

theorem stoi_print (key : Int32) : stoi (Decimal.print key.toInt) = some key := by
  have hrange : -2 ^ 31 ≤ key.toInt ∧ key.toInt < 2 ^ 31 := ⟨key.le_toInt, key.toInt_lt⟩
  simp only [stoi, Decimal.scan_print, if_pos hrange, Int32.ofInt_toInt]

/-- The line of the username gives it back; without a username it does nothing. -/
theorem readLine_username {username : List UInt8} (hname : 10 ∉ username) :
    readLine defaults (usernameKey ++ 61 :: username) = { defaults with username } := by
  have hequals : 61 ∉ usernameKey := by decide
  unfold readLine
  rw [getline_append hequals]
  by_cases hne : username = []
  · subst hne
    rfl
  · simp only [getline_last hname hne, if_true]

theorem readLine_entry (c : Config) {pair : List UInt8 × Int32} (h : Nameable pair.1) :
    readLine c (entry pair) = { c with keybinds := c.keybinds.insert pair.1 pair.2 } := by
  obtain ⟨-, hequals, hname⟩ := h
  have hvalue := getline_last (newline_notMem_print pair.2.toInt) (Decimal.print_ne_nil _)
  unfold readLine entry
  rw [getline_append hequals]
  simp only [hvalue, if_neg hname, stoi_print]

theorem foldl_readLine_entries (c : Config) {pairs : List (List UInt8 × Int32)} (h : ∀ pair ∈ pairs, Nameable pair.1) :
    (pairs.map entry).foldl readLine c =
      { c with keybinds := pairs.foldl (fun keybinds pair => keybinds.insert pair.1 pair.2) c.keybinds } := by
  induction pairs generalizing c with
  | nil => rfl
  | cons pair pairs ih =>
    rw [List.map_cons, List.foldl_cons, readLine_entry c (h pair List.mem_cons_self),
      ih _ fun p hp => h p (List.mem_cons_of_mem _ hp), List.foldl_cons]

namespace Config.Writable

variable {c : Config}

theorem nameable (h : c.Writable) {pair : List UInt8 × Int32} (hpair : pair ∈ c.keybinds.toList) : Nameable pair.1 := by
  have hsome : c.keybinds[pair.1]? = some pair.2 := Std.TreeMap.mem_toList_iff_getElem?_eq_some.1 hpair
  refine h.actions pair.1 (Std.TreeMap.mem_iff_isSome_getElem?.2 ?_)
  rw [hsome]
  rfl

theorem newline_notMem_entries (h : c.Writable) : ∀ line ∈ c.entries, 10 ∉ line := by
  intro line hline
  rcases List.mem_cons.1 hline with rfl | hentry
  · have hkey : 10 ∉ usernameKey := by decide
    simp only [List.mem_append, List.mem_cons, not_or]
    exact ⟨hkey, by decide, h.username⟩
  · obtain ⟨pair, hpair, rfl⟩ := List.mem_map.1 hentry
    simp only [entry, List.mem_append, List.mem_cons, not_or]
    exact ⟨(h.nameable hpair).1, by decide, newline_notMem_print _⟩

/-- **A writable configuration is read back.** -/
theorem readBack (h : c.Writable) : (ConfigManager.loadConfig (some (saveConfig c))).Same c := by
  have hload : ConfigManager.loadConfig (some (saveConfig c)) = c.entries.foldl ConfigManager.readLine defaults := by
    rw [saveConfig_eq, ConfigManager.loadConfig, lines_written h.newline_notMem_entries]
  rw [hload, entries, List.foldl_cons, readLine_username h.username,
    foldl_readLine_entries _ fun pair hpair => h.nameable hpair]
  refine ⟨rfl, Maps.foldl_insert_toList _ _ fun action haction => ?_⟩
  obtain ⟨pair, hpair, rfl⟩ := (mem_defaults_iff action).1 haction
  exact h.present pair hpair

/-- The movement keys of a writable configuration are there. -/
theorem bound (h : c.Writable) (k : Keys) (isKeyDown : Int32 → Bool) : (k.bound c.keybinds isKeyDown).isSome := by
  have hkey (action : List UInt8) (key : Int32) (hpair : (action, key) ∈ defaultKeybinds) :
      ∃ n, c.keybinds[action]? = some n :=
    Option.isSome_iff_exists.1 (Std.TreeMap.mem_iff_isSome_getElem?.1 (h.present _ hpair))
  obtain ⟨up, hup⟩ := hkey upAction 87 (by decide)
  obtain ⟨down, hdown⟩ := hkey downAction 83 (by decide)
  obtain ⟨left, hleft⟩ := hkey leftAction 65 (by decide)
  obtain ⟨right, hright⟩ := hkey rightAction 68 (by decide)
  simp [Keys.bound, hup, hdown, hleft, hright]

end Config.Writable

/-! ## Edits -/

/-- An edit of the configuration. -/
inductive Edit
  | append (key : Int32)
  | pop
  | remap (action : List UInt8) (key : Int32)

/-- What an edit does: printable characters are appended, and actions that exist remapped. -/
def Config.edit (c : Config) : Edit → Config
  | .append key => if 32 ≤ key ∧ key ≤ 125 then { c with username := c.username ++ [key.toInt8.toUInt8] } else c
  | .pop => { c with username := c.username.dropLast }
  | .remap action key => if action ∈ c.keybinds then { c with keybinds := c.keybinds.insert action key } else c

/-- A printable character is no newline: the conversion to `char` keeps it. -/
theorem printable_ne_newline {key : Int32} (h : 32 ≤ key ∧ key ≤ 125) : key.toInt8.toUInt8 ≠ 10 := by
  have hlow : (32 : Int32).toInt ≤ key.toInt := Int32.le_iff_toInt_le.1 h.1
  have hhigh : key.toInt ≤ (125 : Int32).toInt := Int32.le_iff_toInt_le.1 h.2
  have hlow' : (32 : Int32).toInt = 32 := by decide
  have hhigh' : (125 : Int32).toInt = 125 := by decide
  have hsame : key.toInt8.toInt = key.toInt := by
    rw [Int32.toInt_toInt8]
    exact Int.bmod_eq_of_le (by omega) (by omega)
  intro hnewline
  have hten : key.toInt8 = 10 := congrArg UInt8.toInt8 hnewline
  have hvalue : key.toInt8.toInt = 10 := by
    rw [hten]
    decide
  omega

namespace Config.Writable

variable {c : Config}

/-- **An edit keeps the configuration writable.** -/
theorem edit (h : c.Writable) (e : Edit) : (c.edit e).Writable := by
  cases e with
  | append key =>
    by_cases hkey : 32 ≤ key ∧ key ≤ 125
    · have hedit : c.edit (.append key) = { c with username := c.username ++ [key.toInt8.toUInt8] } := if_pos hkey
      rw [hedit]
      refine h.named fun hmem => ?_
      rcases List.mem_append.1 hmem with hold | hnew
      · exact h.username hold
      · exact printable_ne_newline hkey (List.mem_singleton.1 hnew).symm
    · have hedit : c.edit (.append key) = c := if_neg hkey
      rw [hedit]
      exact h
  | pop => exact h.named fun hmem => h.username (List.dropLast_subset _ hmem)
  | remap action key =>
    by_cases haction : action ∈ c.keybinds
    · have hedit : c.edit (.remap action key) = { c with keybinds := c.keybinds.insert action key } := if_pos haction
      rw [hedit]
      exact h.mapped (h.actions action haction) key
    · have hedit : c.edit (.remap action key) = c := if_neg haction
      rw [hedit]
      exact h

theorem edits (h : c.Writable) (edits : List Edit) : (edits.foldl Config.edit c).Writable := by
  induction edits generalizing c with
  | nil => exact h
  | cons e edits ih => exact ih (h.edit e)

end Config.Writable

/-- **The configuration comes back.** Whatever the file held and however the menus edit it, the
configuration that is written is read back, and `handleInput` finds its four keys. -/
theorem ConfigManager.config_roundTrip (file : Option (List UInt8)) (edits : List Edit) :
    (loadConfig (some (saveConfig (edits.foldl Config.edit (loadConfig file))))).Same
        (edits.foldl Config.edit (loadConfig file)) ∧
      ∀ (k : Keys) (isKeyDown : Int32 → Bool),
        (k.bound (edits.foldl Config.edit (loadConfig file)).keybinds isKeyDown).isSome := by
  have hwritable := (Config.Writable.loadConfig file).edits edits
  exact ⟨hwritable.readBack, hwritable.bound⟩

/-! ## The menus -/

/-- One configuration is edited into the other. -/
def Config.Edited (c c' : Config) : Prop := ∃ edits : List Edit, c' = edits.foldl Config.edit c

namespace Config.Edited

variable {c c' c'' : Config}

theorem refl (c : Config) : c.Edited c := ⟨[], rfl⟩

theorem one (c : Config) (e : Edit) : c.Edited (c.edit e) := ⟨[e], rfl⟩

theorem trans (h : c.Edited c') (h' : c'.Edited c'') : c.Edited c'' := by
  obtain ⟨first, rfl⟩ := h
  obtain ⟨second, rfl⟩ := h'
  exact ⟨first ++ second, (List.foldl_append ..).symm⟩

theorem writable (h : c.Edited c') (hc : c.Writable) : c'.Writable := by
  obtain ⟨edits, rfl⟩ := h
  exact hc.edits edits

end Config.Edited

theorem typeUsername_edited (c : Config) (key : Int32) :
    c.Edited { c with username := typeUsername c.username key } := by
  unfold typeUsername
  split
  · rename_i h
    have hedit : c.edit (.append key) = { c with username := c.username ++ [key.toInt8.toUInt8] } :=
      if_pos ⟨h.1, h.2.1⟩
    rw [← hedit]
    exact .one c _
  · exact .refl c

theorem drawUsernameInput_edited (c : Config) (f : UsernameFrame) :
    c.Edited { c with username := (drawUsernameInput c.username f).1 } := by
  have htyped (keys : List Int32) : c.Edited { c with username := keys.foldl typeUsername c.username } := by
    induction keys using List.reverseRecOn with
    | nil => exact .refl c
    | append_singleton keys key ih =>
      rw [List.foldl_append, List.foldl_cons, List.foldl_nil]
      exact ih.trans (typeUsername_edited _ key)
  unfold drawUsernameInput
  have htaken := htyped (f.chars.takeWhile (0 < ·))
  cases f.backspace with
  | false => exact htaken
  | true => exact htaken.trans (.one _ .pop)

/-- A change button is pressed of an action that is shown. -/
theorem mem_of_changed {actions : List (List UInt8)} {change : List UInt8 → Bool} {action : List UInt8}
    (h : actions.foldl (fun remap a => if change a then some a else remap) none = some action) : action ∈ actions := by
  induction actions using List.reverseRecOn with
  | nil => cases h
  | append_singleton actions last ih =>
    rw [List.foldl_append, List.foldl_cons, List.foldl_nil] at h
    split at h
    · rw [← Option.some.inj h]
      exact List.mem_append_right _ List.mem_cons_self
    · exact List.mem_append_left _ (ih h)

/-- The action that the menu waits for is one of the map. -/
def Renderer.OptionsMenu.Waits (m : OptionsMenu) : Prop := ∀ action, m.actionToRemap = some action → action ∈ m.keybinds

/-- What a frame of the options does: it keeps the map, or gives an action of it another key. -/
theorem drawOptionsMenu_spec {m : OptionsMenu} (h : m.Waits) (f : OptionsFrame) :
    ((drawOptionsMenu m f).1.keybinds = m.keybinds ∨
      ∃ action ∈ m.keybinds, (drawOptionsMenu m f).1.keybinds = m.keybinds.insert action f.key) ∧
      (drawOptionsMenu m f).1.Waits := by
  unfold drawOptionsMenu
  split
  · rename_i action hremap
    have hmem : action ∈ m.keybinds := by
      refine h action ?_
      split at hremap
      · cases hremap
      · exact hremap
    split
    · refine ⟨.inl rfl, fun other hother => ?_⟩
      rw [← Option.some.inj hother]
      exact hmem
    · refine ⟨.inr ⟨action, hmem, rfl⟩, fun other hother => ?_⟩
      cases hother
  · exact ⟨.inl rfl, fun action haction => Std.TreeMap.mem_keys.1 (mem_of_changed haction)⟩

namespace Menus

/-- The action that the renderer waits for is one of the configuration. -/
def Waits (m : Menus) : Prop := OptionsMenu.Waits ⟨m.config.keybinds, m.actionToRemap⟩

theorem step_edited {m : Menus} (h : m.Waits) (frame : MenuFrame) :
    m.config.Edited (m.step frame).config ∧ (m.step frame).Waits := by
  cases frame with
  | username f => exact ⟨drawUsernameInput_edited m.config f, h⟩
  | options f =>
    obtain ⟨hkeys, hwaits⟩ := drawOptionsMenu_spec h f
    refine ⟨?_, hwaits⟩
    rcases hkeys with hsame | ⟨action, hmem, hmapped⟩
    · have hconfig : (m.step (.options f)).config = m.config := by
        simp only [step, hsame]
      rw [hconfig]
      exact .refl _
    · have hconfig : (m.step (.options f)).config = m.config.edit (.remap action f.key) := by
        simp only [step, hmapped, Config.edit, if_pos hmem]
      rw [hconfig]
      exact .one _ _

/-- **The menus make edits only.** -/
theorem run_edits {m : Menus} (h : m.Waits) (frames : List MenuFrame) : m.config.Edited (m.run frames).config := by
  induction frames generalizing m with
  | nil => exact .refl _
  | cons frame frames ih =>
    obtain ⟨hedited, hwaits⟩ := step_edited h frame
    exact hedited.trans (ih hwaits)

theorem new_waits (file : Option (List UInt8)) : (new file).Waits := by
  intro action h
  cases h

theorem step_file (m : Menus) (frame : MenuFrame) :
    (m.step frame).file = m.file ∨ (m.step frame).file = some (saveConfig (m.step frame).config) := by
  cases frame with
  | username f =>
    simp only [step]
    split
    · exact .inr rfl
    · exact .inl rfl
  | options f =>
    simp only [step]
    split
    · exact .inr rfl
    · exact .inl rfl

/-- **What the file holds reads back** as the configuration of some frame so far. -/
theorem run_file (file : Option (List UInt8)) (frames : List MenuFrame) :
    ∃ past, past <+: frames ∧ (loadConfig ((new file).run frames).file).Same ((new file).run past).config := by
  induction frames using List.reverseRecOn with
  | nil => exact ⟨[], List.nil_prefix, rfl, rfl⟩
  | append_singleton frames frame ih =>
    have hrun : (new file).run (frames ++ [frame]) = ((new file).run frames).step frame := by
      unfold run
      rw [List.foldl_append, List.foldl_cons, List.foldl_nil]
    rcases step_file ((new file).run frames) frame with hkept | hsaved
    · obtain ⟨past, hpast, hsame⟩ := ih
      refine ⟨past, hpast.trans (List.prefix_append _ _), ?_⟩
      rw [hrun, hkept]
      exact hsame
    · refine ⟨frames ++ [frame], List.prefix_rfl, ?_⟩
      have hwritable := (run_edits (new_waits file) (frames ++ [frame])).writable (.loadConfig file)
      rw [hrun] at hwritable ⊢
      rw [hsaved]
      exact hwritable.readBack

end Menus

end RType

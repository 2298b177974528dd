import RtThread.Lib.Transition

/-!
# The menus of the OLED display

`initMenu` and `OLED_Control` of `OLED_Display.c`. A menu has an array of submenus, or of functions, or both, and some have neither; the arrays are of different lengths. What an access through `NULL` or behind an array does is not defined, and such a call has no result here.

What is drawn is left out, as are the flags that other parts of the program read.
-/

namespace RtThread

inductive MenuId
  | mainMenu | searchMenu | colorMenu | dotMenu | sysMenu | backMenu | numSystem | pidMenu | dirMenu | speedMenu | parameterMenu
  | lightnessMenu | aboutMenu
  deriving DecidableEq

inductive MenuFunc
  | func1 | func2 | func3 | func4 | func5 | func6
  | funcSystem1 | funcSystem2 | funcSystem3
  | colorChoose0 | colorChoose1 | colorChoose2 | colorChoose3 | colorChoose4 | colorChoose5 | colorChoose6
  | colorDot0 | colorDot1 | colorDot2
  | systemChoose | systemChoose1 | backgroundChoose0
  deriving DecidableEq

/-- `struct menu` without the texts of its items. -/
structure Menu where
  rangeFrom : Nat
  rangeTo : Nat
  itemCount : Nat
  selected : Nat
  subMenus : Option (List (Option MenuId))
  parent : Option MenuId
  func : Option (List (Option MenuFunc))
  deriving DecidableEq

structure OledState where
  menu : MenuId → Menu
  currentMenu : MenuId
  modifyMpu : Bool
  modifyDir : Bool
  modifySpeed : Bool
  lightnessValue : Int

/-- The keys that have been pressed, `key_up`, `key_down`, `key_r`, `key_l` and `key_a`. -/
structure OledKeys where
  up : Bool
  down : Bool
  r : Bool
  l : Bool
  a : Bool
  deriving DecidableEq

open MenuFunc in
/-- The menus as they are declared, with what `initMenu` sets in them. -/
def initMenus : MenuId → Menu
  | .mainMenu => ⟨0, 3, 4, 0, some [some .colorMenu, some .dotMenu, some .sysMenu, some .aboutMenu], none, none⟩
  | .colorMenu =>
    ⟨0, 3, 8, 0, some [none, none, none, none, none, none, none, none], some .mainMenu,
      some [none, some colorChoose0, some colorChoose1, some colorChoose2, some colorChoose3, some colorChoose4, some colorChoose5,
        some colorChoose6]⟩
  | .dotMenu =>
    ⟨0, 3, 4, 0, some [none, none, none, none, none, none, none, none], some .mainMenu,
      some [none, some colorDot0, some colorDot1, some colorDot2]⟩
  | .sysMenu =>
    ⟨0, 3, 5, 0, some [none, none, none, some .lightnessMenu, some .backMenu], some .mainMenu,
      some [none, some systemChoose, some systemChoose1, none]⟩
  | .lightnessMenu => ⟨0, 0, 0, 0, none, some .sysMenu, none⟩
  | .backMenu =>
    ⟨0, 3, 4, 0, some [none, none, none, none], some .sysMenu, some [none, some backgroundChoose0, none, none]⟩
  | .aboutMenu => ⟨0, 0, 0, 0, none, some .mainMenu, none⟩
  | .searchMenu =>
    ⟨0, 3, 4, 0, some [none, none, none, none, none, none], some .mainMenu,
      some [none, some funcSystem1, some funcSystem2, some funcSystem3, none, none]⟩
  | .numSystem =>
    ⟨0, 3, 6, 0, none, some .parameterMenu, some [some func1, some func2, some func3, some func4, some func5, some func6]⟩
  | .parameterMenu =>
    ⟨0, 3, 4, 0, some [some .pidMenu, some .dirMenu, some .speedMenu, some .numSystem], some .mainMenu, none⟩
  | .pidMenu => ⟨0, 7, 5, 0, none, some .parameterMenu, none⟩
  | .dirMenu => ⟨0, 7, 2, 0, none, some .parameterMenu, none⟩
  | .speedMenu => ⟨0, 7, 3, 0, none, some .parameterMenu, none⟩

def initMenu (lightnessValue : Int) : OledState := ⟨initMenus, .mainMenu, false, false, false, lightnessValue⟩

namespace OledState

/-- `*currentMenu` -/
def current (s : OledState) : Menu := s.menu s.currentMenu

def setCurrent (s : OledState) (f : Menu → Menu) : OledState :=
  { s with menu := Function.update s.menu s.currentMenu (f s.current) }

theorem setCurrent_self (s : OledState) (f : Menu → Menu) : (s.setCurrent f).menu s.currentMenu = f s.current := Function.update_self ..

theorem setCurrent_ne (s : OledState) (f : Menu → Menu) {m : MenuId} (hm : m ≠ s.currentMenu) : (s.setCurrent f).menu m = s.menu m :=
  Function.update_of_ne hm ..

def modifies (s : OledState) : Bool := s.modifyMpu || s.modifyDir || s.modifySpeed

def clearModify (s : OledState) : OledState := { s with modifyMpu := false, modifyDir := false, modifySpeed := false }

end OledState

/-- `array[i]` of an array of pointers. -/
def arrayAt {α : Type} (array : Option (List (Option α))) (i : Nat) : Option (Option α) := array.bind fun array => array[i]?

def lightnessUp (value : Int) : Int := if 145 < value + 5 then 148 else value + 5

def lightnessDown (value : Int) : Int := if value - 5 < 5 then 1 else value - 5

def Menu.selectUp (menu : Menu) : Menu :=
  let menu := { menu with selected := menu.selected - 1 }
  if menu.selected < menu.rangeFrom then { menu with rangeFrom := menu.selected, rangeTo := (menu.selected + 3) % 256 }
  else menu

def Menu.selectDown (menu : Menu) : Menu :=
  let menu := { menu with selected := (menu.selected + 1) % 256 }
  if menu.rangeTo < menu.selected then { menu with rangeTo := menu.selected, rangeFrom := (menu.selected + 253) % 256 }
  else menu

/-- The part of `OLED_Control` for `key_up`. -/
def oledKeyUp (s : OledState) : OledState :=
  let s := if s.currentMenu = .lightnessMenu then { s with lightnessValue := lightnessUp s.lightnessValue } else s
  if s.currentMenu ≠ .pidMenu ∧ s.currentMenu ≠ .dirMenu ∧ s.currentMenu ≠ .speedMenu ∧ s.modifies = false then
    if s.current.selected = 0 then s else s.setCurrent Menu.selectUp
  else s

/-- The menus in which `key_down` moves the selection. -/
def scrolls : MenuId → Bool
  | .mainMenu | .colorMenu | .dotMenu | .sysMenu | .backMenu | .searchMenu | .parameterMenu => true
  | _ => false

/-- The part of `OLED_Control` for `key_down`. -/
def oledKeyDown (s : OledState) : OledState :=
  let s := if s.currentMenu = .lightnessMenu then { s with lightnessValue := lightnessDown s.lightnessValue } else s
  if s.modifies = false then
    if s.current.selected + 1 = s.current.itemCount then s
    else if scrolls s.currentMenu = true then s.setCurrent Menu.selectDown
    else s
  else s

/-- The part of `OLED_Control` for `key_l`. -/
def oledKeyLeft (s : OledState) : OledState :=
  match s.current.parent with
  | some parent => { s.clearModify with currentMenu := parent }
  | none => s

/-- The part of `OLED_Control` for `key_r`, with the function it executes. -/
def oledKeyRight (s : OledState) : Option (OledState × Option MenuFunc) := do
  let r ←
    if s.modifyMpu = false ∨ s.modifyDir = false ∨ s.modifySpeed = false then do
      match ← arrayAt s.current.subMenus s.current.selected with
      | some subMenu => some ({ s with currentMenu := subMenu }, none)
      | none => do
        let func ← arrayAt s.current.func s.current.selected
        some (s, func)
    else some (s, none)
  return (if r.1.modifies = true then r.1.clearModify else r.1, r.2)

/-- The part of `OLED_Control` for `key_a`. -/
def oledKeyA (s : OledState) : OledState :=
  match s.currentMenu with
  | .pidMenu => { s with modifyMpu := true }
  | .dirMenu => { s with modifyDir := true }
  | .speedMenu => { s with modifySpeed := true }
  | _ => s

/-- `OLED_Control`, with the functions it executes. -/
def oledControl (s : OledState) (keys : OledKeys) : Option (OledState × List MenuFunc) := do
  let s := if keys.up = true then oledKeyUp s else s
  let s := if keys.down = true then oledKeyDown s else s
  let s := if keys.l = true then oledKeyLeft s else s
  let (s, func) ← if keys.r = true then oledKeyRight s else some (s, none)
  let s := if keys.a = true then oledKeyA s else s
  return (s, func.toList)

/-- The runs of `OLED_Control` after `initMenu`. -/
abbrev OledRun (lightnessValue : Int) : List MenuFunc → OledState → Prop :=
  Transition.Run oledControl (fun _ _ => True) (initMenu lightnessValue)

theorem exists_oledRun (lightnessValue : Int) (keys : List OledKeys) (found : List MenuFunc → OledState → Bool)
    (h : ((Transition.exec oledControl (fun _ _ => True) (initMenu lightnessValue) keys).any fun r => found r.1 r.2) = true) :
    ∃ trace s, OledRun lightnessValue trace s ∧ found trace s = true :=
  Transition.exists_run_of_exec keys found h

/-! ## The menus that are linked -/

/-- `initMenu` links the menu with the main menu. -/
inductive Linked : MenuId → Prop
  | main : Linked .mainMenu
  | sub {m subMenu : MenuId} {i : Nat} : Linked m → arrayAt (initMenus m).subMenus i = some (some subMenu) → Linked subMenu

def linkedMenus : List MenuId := [.mainMenu, .colorMenu, .dotMenu, .sysMenu, .aboutMenu, .lightnessMenu, .backMenu]

theorem linked_main {m : MenuId} {i : Nat} (h : arrayAt (initMenus .mainMenu).subMenus i = some (some m)) : Linked m := .sub .main h

theorem Linked.sys : Linked .sysMenu := linked_main (i := 2) rfl

theorem linked_iff {m : MenuId} : Linked m ↔ m ∈ linkedMenus := by
  constructor
  · intro h
    induction h with
    | main => decide
    | @sub m subMenu i _ hsub ih =>
      have hclosed : ∀ m ∈ linkedMenus, ∀ item ∈ (initMenus m).subMenus.getD [], ∀ subMenu ∈ item, subMenu ∈ linkedMenus := by decide
      obtain ⟨array, harray, hi⟩ := Option.bind_eq_some_iff.1 hsub
      refine hclosed m ih (some subMenu) ?_ subMenu rfl
      rw [harray]
      exact List.mem_of_getElem? hi
  · intro h
    simp only [linkedMenus, List.mem_cons, List.not_mem_nil, or_false] at h
    rcases h with rfl | rfl | rfl | rfl | rfl | rfl | rfl
    · exact .main
    · exact linked_main (i := 0) rfl
    · exact linked_main (i := 1) rfl
    · exact .sys
    · exact linked_main (i := 3) rfl
    · exact .sub .sys (i := 3) rfl
    · exact .sub .sys (i := 4) rfl

theorem Linked.arrays {m : MenuId} (h : Linked m) :
    (initMenus m).itemCount = 0 ∧ (initMenus m).subMenus = none ∧ (initMenus m).func = none ∨
      (4 ≤ (initMenus m).itemCount ∧ (initMenus m).itemCount ≤ 8 ∧ scrolls m = true ∧
        ∀ i < (initMenus m).itemCount, ∃ subMenu, arrayAt (initMenus m).subMenus i = some subMenu ∧
          (subMenu = none → ∃ func, arrayAt (initMenus m).func i = some func)) := by
  have hdecide : ∀ m ∈ linkedMenus, (initMenus m).itemCount = 0 ∧ (initMenus m).subMenus = none ∧ (initMenus m).func = none ∨
      (4 ≤ (initMenus m).itemCount ∧ (initMenus m).itemCount ≤ 8 ∧ scrolls m = true ∧
        ∀ i < (initMenus m).itemCount, (arrayAt (initMenus m).subMenus i).isSome = true ∧
          (arrayAt (initMenus m).subMenus i = some none → (arrayAt (initMenus m).func i).isSome = true)) := by decide
  refine (hdecide m (linked_iff.1 h)).imp_right fun ⟨hge, hle, hscrolls, harrays⟩ => ⟨hge, hle, hscrolls, fun i hi => ?_⟩
  obtain ⟨hsub, hfunc⟩ := harrays i hi
  obtain ⟨subMenu, hsub⟩ := Option.isSome_iff_exists.1 hsub
  refine ⟨subMenu, hsub, ?_⟩
  rintro rfl
  exact Option.isSome_iff_exists.1 (hfunc hsub)

theorem Linked.parent {m parent : MenuId} (h : Linked m) (hparent : (initMenus m).parent = some parent) :
    Linked parent ∧ (initMenus parent).subMenus ≠ none := by
  have hdecide : ∀ m ∈ linkedMenus, ∀ parent ∈ (initMenus m).parent, parent ∈ linkedMenus ∧ (initMenus parent).subMenus ≠ none := by decide
  obtain ⟨hmem, hsub⟩ := hdecide m (linked_iff.1 h) parent hparent
  exact ⟨linked_iff.2 hmem, hsub⟩

theorem Linked.ne {m : MenuId} (h : Linked m) : m ≠ .pidMenu ∧ m ≠ .dirMenu ∧ m ≠ .speedMenu := by
  have hdecide : ∀ m ∈ linkedMenus, m ≠ .pidMenu ∧ m ≠ .dirMenu ∧ m ≠ .speedMenu := by decide
  exact hdecide m (linked_iff.1 h)

/-! ## Every state -/

variable {s s' : OledState} {keys : OledKeys} {lightnessValue : Int} {trace calls : List MenuFunc}

/-- What stays of a menu as `initMenu` has left it. -/
def Menu.links (menu : Menu) : Nat × Option (List (Option MenuId)) × Option MenuId × Option (List (Option MenuFunc)) :=
  (menu.itemCount, menu.subMenus, menu.parent, menu.func)

/-- The selected item exists and is one of the four that are shown; without items it is the first. -/
def Menu.Shows (menu : Menu) : Prop :=
  if menu.itemCount = 0 then menu.selected = 0
  else menu.rangeFrom ≤ menu.selected ∧ menu.selected ≤ menu.rangeTo ∧ menu.rangeTo = menu.rangeFrom + 3 ∧ menu.selected < menu.itemCount

instance (menu : Menu) : Decidable menu.Shows := by unfold Menu.Shows; infer_instance

structure OledInv (s : OledState) : Prop where
  links (m : MenuId) : (s.menu m).links = (initMenus m).links
  linked : Linked s.currentMenu
  modifies : s.modifies = false
  shows (m : MenuId) (h : Linked m) : (s.menu m).Shows

namespace OledInv

theorem itemCount (h : OledInv s) : s.current.itemCount = (initMenus s.currentMenu).itemCount := congrArg Prod.fst (h.links _)

theorem subMenus (h : OledInv s) : s.current.subMenus = (initMenus s.currentMenu).subMenus := congrArg (·.2.1) (h.links _)

theorem parent (h : OledInv s) : s.current.parent = (initMenus s.currentMenu).parent := congrArg (·.2.2.1) (h.links _)

theorem func (h : OledInv s) : s.current.func = (initMenus s.currentMenu).func := congrArg (·.2.2.2) (h.links _)

theorem setCurrent (h : OledInv s) {f : Menu → Menu} (hlinks : (f s.current).links = s.current.links) (hshows : (f s.current).Shows) :
    OledInv (s.setCurrent f) := by
  refine ⟨fun m => ?_, h.linked, h.modifies, fun m hm => ?_⟩
  · by_cases hcur : m = s.currentMenu
    · subst hcur
      rw [OledState.setCurrent_self, hlinks]
      exact h.links s.currentMenu
    · rw [OledState.setCurrent_ne s f hcur]
      exact h.links m
  · by_cases hcur : m = s.currentMenu
    · subst hcur
      rwa [OledState.setCurrent_self]
    · rw [OledState.setCurrent_ne s f hcur]
      exact h.shows m hm

theorem goTo (h : OledInv s) {m : MenuId} (hm : Linked m) : OledInv { s with currentMenu := m } := ⟨h.links, hm, h.modifies, h.shows⟩

theorem lightness (h : OledInv s) (value : Int) :
    OledInv (if s.currentMenu = .lightnessMenu then { s with lightnessValue := value } else s) ∧
      (if s.currentMenu = .lightnessMenu then { s with lightnessValue := value } else s).currentMenu = s.currentMenu := by
  split_ifs
  · exact ⟨⟨h.links, h.linked, h.modifies, h.shows⟩, rfl⟩
  · exact ⟨h, rfl⟩

theorem current_shows (h : OledInv s) : s.current.Shows ∧ s.current.itemCount ≤ 8 ∧
    (scrolls s.currentMenu = true → s.current.itemCount ≠ 0) := by
  refine ⟨h.shows _ h.linked, ?_⟩
  rw [h.itemCount]
  rcases h.linked.arrays with ⟨hnone, -, -⟩ | ⟨hge, hle, -, -⟩
  · refine ⟨by omega, fun hscrolls => ?_⟩
    have hdecide : ∀ m ∈ linkedMenus, scrolls m = true → (initMenus m).itemCount ≠ 0 := by decide
    exact hdecide _ (linked_iff.1 h.linked) hscrolls
  · exact ⟨hle, fun _ => by omega⟩

theorem selectUp (h : OledInv s) (hselected : s.current.selected ≠ 0) : OledInv (s.setCurrent Menu.selectUp) := by
  obtain ⟨hshows, hle, -⟩ := h.current_shows
  unfold Menu.Shows at hshows
  split_ifs at hshows with hnone
  · exact absurd hshows hselected
  · obtain ⟨hfrom, hto, hrange, hlt⟩ := hshows
    unfold Menu.selectUp
    apply h.setCurrent
    · dsimp only
      split_ifs <;> rfl
    · dsimp only
      split_ifs with hwindow
      · rw [Menu.Shows, if_neg hnone]
        dsimp only
        omega
      · rw [Menu.Shows, if_neg hnone]
        dsimp only
        omega

theorem selectDown (h : OledInv s) (hlast : s.current.selected + 1 ≠ s.current.itemCount) (hscrolls : scrolls s.currentMenu = true) :
    OledInv (s.setCurrent Menu.selectDown) := by
  obtain ⟨hshows, hle, hitems⟩ := h.current_shows
  have hnone := hitems hscrolls
  rw [Menu.Shows, if_neg hnone] at hshows
  obtain ⟨hfrom, hto, hrange, hlt⟩ := hshows
  unfold Menu.selectDown
  apply h.setCurrent
  · dsimp only
    split_ifs <;> rfl
  · dsimp only
    split_ifs with hwindow
    · rw [Menu.Shows, if_neg hnone]
      dsimp only
      omega
    · rw [Menu.Shows, if_neg hnone]
      dsimp only
      omega

theorem keyUp (h : OledInv s) : OledInv (oledKeyUp s) ∧ (oledKeyUp s).currentMenu = s.currentMenu := by
  unfold oledKeyUp
  obtain ⟨hinv, hcur⟩ := h.lightness (lightnessUp s.lightnessValue)
  generalize (if s.currentMenu = .lightnessMenu then { s with lightnessValue := lightnessUp s.lightnessValue } else s) = s₁ at hinv hcur ⊢
  dsimp only
  split_ifs with hmoves hzero
  · exact ⟨hinv, hcur⟩
  · exact ⟨hinv.selectUp hzero, hcur⟩
  · exact ⟨hinv, hcur⟩

theorem keyDown (h : OledInv s) : OledInv (oledKeyDown s) ∧ (oledKeyDown s).currentMenu = s.currentMenu := by
  unfold oledKeyDown
  obtain ⟨hinv, hcur⟩ := h.lightness (lightnessDown s.lightnessValue)
  generalize (if s.currentMenu = .lightnessMenu then { s with lightnessValue := lightnessDown s.lightnessValue } else s) = s₁ at hinv hcur ⊢
  dsimp only
  split_ifs with hmoves hlast hscrolls
  · exact ⟨hinv, hcur⟩
  · exact ⟨hinv.selectDown hlast hscrolls, hcur⟩
  · exact ⟨hinv, hcur⟩
  · exact ⟨hinv, hcur⟩

theorem keyLeft (h : OledInv s) : OledInv (oledKeyLeft s) ∧ (oledKeyLeft s).current.subMenus ≠ none := by
  unfold oledKeyLeft
  cases hparent : s.current.parent with
  | none =>
    have hdecide : ∀ m ∈ linkedMenus, (initMenus m).parent = none → (initMenus m).subMenus ≠ none := by decide
    rw [h.parent] at hparent
    exact ⟨h, h.subMenus ▸ hdecide _ (linked_iff.1 h.linked) hparent⟩
  | some parent =>
    rw [h.parent] at hparent
    obtain ⟨hlinked, hsub⟩ := h.linked.parent hparent
    have hinv : OledInv { s.clearModify with currentMenu := parent } := ⟨h.links, hlinked, rfl, h.shows⟩
    exact ⟨hinv, hinv.subMenus ▸ hsub⟩

theorem keyA (h : OledInv s) : oledKeyA s = s := by
  obtain ⟨hpid, hdir, hspeed⟩ := h.linked.ne
  unfold oledKeyA
  split
  · exact absurd ‹_› hpid
  · exact absurd ‹_› hdir
  · exact absurd ‹_› hspeed
  · rfl

theorem keyRight (h : OledInv s) : match oledKeyRight s with
    | none => s.current.subMenus = none
    | some (s', _) => OledInv s' ∧ s.current.subMenus ≠ none := by
  have hmodifies := h.modifies
  simp only [OledState.modifies, Bool.or_eq_false_iff] at hmodifies
  obtain ⟨⟨hmpu, -⟩, -⟩ := hmodifies
  unfold oledKeyRight
  rw [if_pos (.inl hmpu)]
  rcases h.linked.arrays with ⟨-, hnone, -⟩ | ⟨hge, -, -, harrays⟩
  · rw [← h.subMenus] at hnone
    rw [hnone]
    exact rfl
  · have hitems : s.current.itemCount ≠ 0 := by
      rw [h.itemCount]
      omega
    have hshows := h.current_shows.1
    rw [Menu.Shows, if_neg hitems, h.itemCount] at hshows
    obtain ⟨subMenu, hsub, hfunc⟩ := harrays _ hshows.2.2.2
    have hsome : s.current.subMenus ≠ none := by
      rw [h.subMenus]
      intro hno
      rw [hno] at hsub
      cases hsub
    rw [← h.subMenus] at hsub
    rw [hsub]
    cases subMenu with
    | some next =>
      have hnext : OledInv { s with currentMenu := next } := h.goTo (.sub h.linked (h.subMenus ▸ hsub))
      change OledInv (if OledState.modifies { s with currentMenu := next } = true then _ else _) ∧ _
      rw [if_neg (by rw [hnext.modifies]; decide)]
      exact ⟨hnext, hsome⟩
    | none =>
      obtain ⟨func, hfunc⟩ := hfunc rfl
      rw [← h.func] at hfunc
      dsimp only
      rw [hfunc]
      change OledInv (if s.modifies = true then _ else _) ∧ _
      rw [if_neg (by rw [h.modifies]; decide)]
      exact ⟨h, hsome⟩

end OledInv

/-- The key to the right is pressed in a menu without submenus, and the key to the left, which leaves it, is not. -/
def EntersNothing (s : OledState) (keys : OledKeys) : Prop := keys.r = true ∧ keys.l = false ∧ s.current.subMenus = none

theorem OledInv.control (h : OledInv s) (keys : OledKeys) : match oledControl s keys with
    | none => EntersNothing s keys
    | some (s', _) => OledInv s' ∧ ¬ EntersNothing s keys := by
  have hselect : ∃ s₁, (if keys.down = true then oledKeyDown (if keys.up = true then oledKeyUp s else s)
      else (if keys.up = true then oledKeyUp s else s)) = s₁ ∧ OledInv s₁ ∧ s₁.currentMenu = s.currentMenu := by
    refine ⟨_, rfl, ?_⟩
    have hup : OledInv (if keys.up = true then oledKeyUp s else s) ∧ (if keys.up = true then oledKeyUp s else s).currentMenu = s.currentMenu := by
      split_ifs
      · exact h.keyUp
      · exact ⟨h, rfl⟩
    by_cases hdown : keys.down = true
    · rw [if_pos hdown]
      exact ⟨hup.1.keyDown.1, hup.1.keyDown.2.trans hup.2⟩
    · rw [if_neg hdown]
      exact hup
  obtain ⟨s₁, hs₁, hinv, hcur⟩ := hselect
  have hsub : s₁.current.subMenus = s.current.subMenus := by rw [hinv.subMenus, h.subMenus, hcur]
  have hleft : ∃ s₂, (if keys.l = true then oledKeyLeft s₁ else s₁) = s₂ ∧ OledInv s₂ ∧
      (s₂.current.subMenus = none ↔ keys.l = false ∧ s.current.subMenus = none) := by
    refine ⟨_, rfl, ?_⟩
    by_cases hl : keys.l = true
    · rw [if_pos hl, hl]
      obtain ⟨hinv', hsome⟩ := hinv.keyLeft
      exact ⟨hinv', iff_of_false hsome fun hboth => nomatch hboth.1⟩
    · rw [if_neg hl, hsub]
      exact ⟨hinv, (and_iff_right (Bool.not_eq_true _ ▸ hl)).symm⟩
  obtain ⟨s₂, hs₂, hinv₂, hnone⟩ := hleft
  unfold oledControl EntersNothing
  dsimp only
  rw [hs₁, hs₂, ← hnone]
  by_cases hr : keys.r = true
  · rw [if_pos hr]
    have hright := hinv₂.keyRight
    cases hrun : oledKeyRight s₂ with
    | none =>
      rw [hrun] at hright
      exact ⟨hr, hright⟩
    | some r =>
      rw [hrun] at hright
      obtain ⟨hinv₃, hsome⟩ := hright
      refine ⟨?_, fun henters => hsome henters.2⟩
      split_ifs
      · exact hinv₃.keyA.symm ▸ hinv₃
      · exact hinv₃
  · rw [if_neg hr]
    refine ⟨?_, fun henters => hr henters.1⟩
    change OledInv (if keys.a = true then oledKeyA s₂ else s₂)
    split_ifs
    · exact hinv₂.keyA.symm ▸ hinv₂
    · exact hinv₂

theorem OledInv.init (lightnessValue : Int) : OledInv (initMenu lightnessValue) := by
  refine ⟨fun _ => rfl, .main, rfl, fun m hm => ?_⟩
  have hdecide : ∀ m ∈ linkedMenus, (initMenus m).Shows := by decide
  exact hdecide m (linked_iff.1 hm)

/-- A state of the menus that is as it should be, and what the next call makes of it. -/
structure OledSafe (s : OledState) : Prop where
  linked : Linked s.currentMenu
  shows : s.current.Shows
  /-- The accesses of a call are all in arrays that exist, or a menu that has none is to be entered. -/
  access : ∀ keys, oledControl s keys = none ↔ EntersNothing s keys

/-- After any keys. -/
theorem oledSafe_of_run (hrun : OledRun lightnessValue trace s) : OledSafe s := by
  have hinv : OledInv s := by
    refine hrun.state_invariant (.init lightnessValue) fun s keys s' calls h _ hstep => ?_
    have hcontrol := h.control keys
    rw [hstep] at hcontrol
    exact hcontrol.1
  refine ⟨hinv.linked, hinv.shows _ hinv.linked, fun keys => ?_⟩
  have hcontrol := hinv.control keys
  cases hstep : oledControl s keys with
  | none =>
    rw [hstep] at hcontrol
    exact iff_of_true rfl hcontrol
  | some r =>
    rw [hstep] at hcontrol
    exact iff_of_false (fun hno => nomatch hno) hcontrol.2

/-- Down to the fifth item of the second menu, whose array of functions has four, into its submenu, and a function there. -/
theorem oledSafe_of_run_background : ∃ trace s, OledRun 50 trace s ∧ trace = [.backgroundChoose0] ∧ (s.menu .sysMenu).selected = 4 ∧
    (s.menu .sysMenu).rangeFrom = 1 ∧ OledSafe s := by
  obtain ⟨trace, s, hrun, hfound⟩ := exists_oledRun 50
    [⟨false, true, false, false, false⟩, ⟨false, true, false, false, false⟩, ⟨false, false, true, false, false⟩,
      ⟨false, true, false, false, false⟩, ⟨false, true, false, false, false⟩, ⟨false, true, false, false, false⟩,
      ⟨false, true, false, false, false⟩, ⟨false, true, false, false, false⟩, ⟨false, false, true, false, false⟩,
      ⟨false, true, false, false, false⟩, ⟨false, false, true, false, true⟩]
    (fun trace s => decide (trace = [.backgroundChoose0] ∧ (s.menu .sysMenu).selected = 4 ∧ (s.menu .sysMenu).rangeFrom = 1)) (by decide +kernel)
  obtain ⟨htrace, hselected, hfrom⟩ := of_decide_eq_true hfound
  exact ⟨trace, s, hrun, htrace, hselected, hfrom, oledSafe_of_run hrun⟩

/-- Three times down, into the menu that tells about the program, and to the right again: an access through `NULL`. -/
theorem oled_enters_nothing : ∃ trace s, OledRun 50 trace s ∧ s.currentMenu = .aboutMenu ∧
    oledControl s ⟨false, false, true, false, false⟩ = none := by
  obtain ⟨trace, s, hrun, hfound⟩ := exists_oledRun 50
    [⟨false, true, false, false, false⟩, ⟨false, true, false, false, false⟩, ⟨false, true, false, false, false⟩,
      ⟨false, false, true, false, false⟩]
    (fun _ s => decide (s.currentMenu = .aboutMenu ∧ (oledControl s ⟨false, false, true, false, false⟩).isNone = true)) (by decide +kernel)
  obtain ⟨habout, hnone⟩ := of_decide_eq_true hfound
  exact ⟨trace, s, hrun, habout, Option.isNone_iff_eq_none.1 hnone⟩

end RtThread

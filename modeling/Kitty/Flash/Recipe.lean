import Kitty.Base.CopyOrder
import Kitty.Base.Bytes
import Kitty.Base.Run

/-!
# The install recipe of the flasher

`RECIPE_SH` of `tools/flash-kitty.py:435–596`, which the camera runs from `/tmp`. Its commands are
the steps; what `tar`, `rm`, `df`, `cp` and `chmod` do comes from outside, and between any two steps
the power may be cut, which loses `/tmp` and keeps the flash. The recipe looks at the exit codes of
`tar` and of the `cp` of its loop only.
-/

namespace Kitty.Flash

open Kitty.Base

/-! ### The files -/

/-- The files of the `for SPEC` loop. All but the launcher go to the directory
`/mny/mtd/ipc/ambicam`. -/
inductive Part where
  /-- `ap2p` -/
  | ap2p
  /-- `libcurl.so.4` -/
  | libcurl
  /-- `libpaho-mqtt3cs.so.1` -/
  | libpaho
  /-- `ambicam.sh`, which goes to `/mny/mtd/ipc/ambicam.sh` -/
  | launcher
  /-- `config.json` -/
  | config
  /-- `VERSION` -/
  | version
  /-- `BUILT_AT` -/
  | builtAt
  /-- `COMMIT` -/
  | commit
  deriving DecidableEq, Repr

/-- The order of the `for SPEC` loop. -/
def specs : List Part :=
  [.ap2p, .libcurl, .libpaho, .launcher, .config, .version, .builtAt, .commit]

/-- What phase A looks for with `-e`. -/
def validated : List Part := [.ap2p, .launcher, .version, .libpaho, .libcurl, .config]

theorem nodup_specs : specs.Nodup := by decide

theorem mem_specs (p : Part) : p ∈ specs := by cases p <;> decide

/-- A regular file, with its bit for `-x`. -/
structure File where
  content : Bytes
  exec : Bool
  deriving DecidableEq, Repr

/-- What stands under a name of the extracted bundle. -/
inductive Entry where
  | regular (f : File)
  | directory
  deriving DecidableEq, Repr

/-- What is in `/tmp/AugenTix`. -/
abbrev Bundle : Type := Part → Option Entry

/-- The regular file of a name: `-f` fails where there is none. -/
def Bundle.file (b : Bundle) (p : Part) : Option File :=
  match b p with
  | some (.regular f) => some f
  | _ => none

/-- `[ -s FILE ]` -/
def hasSize (content : Option Bytes) : Bool := content.any (· ≠ [])

/-- What `cp -f` did: all of it, or it ended with an error, after some of the bytes, before it
opened the destination, or with the destination removed. What it wrote, it may have written to a
file made anew in the place of one that it could not open. -/
inductive Outcome where
  | done (anew : Bool)
  | short (anew : Bool) (n : Nat)
  | unopened
  | unlinked
  deriving DecidableEq, Repr

/-- The exit code is zero. -/
def Outcome.succeeds : Outcome → Bool
  | .done _ => true
  | _ => false

/-- What `cp -f` leaves in its destination. -/
def Outcome.leaves (o : Outcome) (src : Bytes) (old : Option Bytes) : Option Bytes :=
  match o with
  | .done _ => some src
  | .short _ n => some (src.take n)
  | .unopened => old
  | .unlinked => none

/-- The bit for `-x` of the destination: a file that is overwritten keeps its mode. -/
def Outcome.mode (o : Outcome) (src : File) (old : Option File) : Bool :=
  match o with
  | .done true | .short true _ => src.exec
  | _ => (old.map (·.exec)).getD src.exec

/-- `cp -f` of a file. -/
def Outcome.install (o : Outcome) (src : File) (old : Option File) : Option File :=
  (o.leaves src.content (old.map (·.content))).map fun content ↦ ⟨content, o.mode src old⟩

/-! ### The camera -/

/-- The line that the recipe closes with. -/
inductive Report where
  /-- `___RECIPE_FAILED_EXTRACT___` -/
  | extract
  /-- `___RECIPE_FAILED_VALIDATE___` -/
  | validate
  /-- `=== INSTALLED ===`, with exit code 0; the others have 1 -/
  | installed
  /-- `___RECIPE_FAILED_GC___` -/
  | gc
  /-- `___RECIPE_FAILED_INSTALL___` -/
  | install
  deriving DecidableEq, Repr

/-- Where the recipe is. -/
inductive Place where
  /-- Phase A. -/
  | extract
  /-- Phase B. -/
  | preserve
  /-- Phase C. -/
  | remove
  /-- Phase D, with `$i`. -/
  | wait (i : Nat)
  /-- Phase E, with the files that the loop has gone through. -/
  | install (k : Nat)
  /-- What follows the loop of phase E. -/
  | chmod
  | burnUID
  | verify
  | ended (report : Report)
  deriving DecidableEq, Repr

/-- What is on the flash of the install itself. -/
abbrev Disk : Type := Part → Option File

/-- A recipe, with the bundle and `/tmp/BurnUID.desired` that it was started with. The shell does
not know whether `rm` and `chmod` had an error. -/
structure Recipe where
  bundle : Bundle
  desired : Option Bytes
  place : Place
  requiredKb : Nat
  freeOk : Bool
  installOk : Bool
  rmOk : Bool
  chmodOk : Bool

/-- The recipe as it starts. -/
def Recipe.start (bundle : Bundle) (desired : Option Bytes) : Recipe where
  bundle := bundle
  desired := desired
  place := .extract
  requiredKb := 0
  freeOk := false
  installOk := false
  rmOk := true
  chmodOk := true

/-- A camera: the install and `/mny/mtd/ipc/BurnUID` on its flash, `/tmp/BurnUID.preserved` in its
memory, and the recipe that is running or was last. -/
structure Camera where
  flash : Disk
  burnUID : Option Bytes
  preserved : Option Bytes
  recipe : Option Recipe

/-- What happens to a camera. -/
inductive Event where
  /-- The flasher stages a bundle and a Device ID and starts the recipe. -/
  | stage (bundle : Bundle) (desired : Option Bytes)
  /-- `tar` extracted the bundle, of so many KB, or failed. -/
  | extracted (requiredKb : Option Nat)
  /-- `cp` came to its end. -/
  | copied (o : Outcome)
  /-- `rm` took one file away. -/
  | unlinked (p : Part)
  /-- `rm` could not take a file away; it goes on with the others. -/
  | rmFailed
  /-- `df` gave a number. -/
  | df (freeKb : Nat)
  /-- `chmod` had an error; it changed the modes of these files. -/
  | chmodFailed (changed : Part → Bool)
  /-- A command that does what it is asked to. -/
  | next
  /-- The recipe is killed. -/
  | killed
  /-- The power is cut, or the camera restarts. -/
  | powerCut

/-- The end of phase A. -/
def Recipe.validate (r : Recipe) (requiredKb : Nat) : Recipe :=
  if validated.all fun p ↦ (r.bundle p).isSome then
    { r with place := .preserve, requiredKb := requiredKb }
  else { r with place := .ended .validate }

/-- A round of phase D, and what follows the last one. -/
def Recipe.round (r : Recipe) (i freeKb : Nat) : Recipe :=
  if r.requiredKb + 16 ≤ freeKb then
    { r with place := .install 0, freeOk := true, installOk := true }
  else if i + 1 < 30 then { r with place := .wait (i + 1) }
  else if r.requiredKb ≤ freeKb then
    { r with place := .install 0, freeOk := true, installOk := true }
  else { r with place := .burnUID, freeOk := false, installOk := false }

/-- `chmod 755 ambicam.sh ap2p`, where `ap2p` has `-x`, as far as it changes the modes. -/
def chmod (changed : Part → Bool) (flash : Disk) : Disk :=
  if (flash .ap2p).any (·.exec) then
    fun p ↦
      if (p = .launcher ∨ p = .ap2p) ∧ changed p = true then
        (flash p).map fun f ↦ { f with exec := true }
      else flash p
  else flash

/-- A round of the loop of phase E: a failed `cp` breaks it. -/
def Camera.installPart (s : Camera) (r : Recipe) (k : Nat) (p : Part) (o : Outcome) : Camera :=
  match r.bundle.file p with
  | none => { s with recipe := some { r with place := .install (k + 1) } }
  | some f =>
    { s with
      flash := Function.update s.flash p (o.install f (s.flash p))
      recipe := some (if o.succeeds then { r with place := .install (k + 1) }
        else { r with place := .chmod, installOk := false }) }

/-- The Device ID is restored or installed where the flash has none. -/
def Camera.restore (s : Camera) (r : Recipe) (o : Outcome) : Option Bytes :=
  if hasSize s.burnUID then s.burnUID
  else if hasSize s.preserved then o.leaves (s.preserved.getD []) s.burnUID
  else if hasSize r.desired then o.leaves (r.desired.getD []) s.burnUID
  else s.burnUID

/-- The tests of the final verification. -/
def Camera.verified (s : Camera) : Bool :=
  (s.flash .ap2p).any (·.exec) && (s.flash .libcurl).isSome && (s.flash .libpaho).isSome &&
    (s.flash .version).isSome && (s.flash .config).isSome && (s.flash .launcher).isSome &&
    hasSize s.burnUID

/-- The closing line. -/
def Camera.report (s : Camera) (r : Recipe) : Report :=
  if r.installOk && s.verified then .installed
  else if r.freeOk then .install
  else .gc

/-- The directory goes before the launcher, as far as it goes. -/
def Camera.mayUnlink (s : Camera) (r : Recipe) (p : Part) : Bool :=
  (s.flash p).isSome &&
    (p ≠ .launcher || !r.rmOk || specs.all fun q ↦ q = .launcher || (s.flash q).isNone)

/-- A step of the recipe. -/
def Camera.recipeStep (s : Camera) (r : Recipe) : Event → Option Camera
  | .extracted (some requiredKb) =>
    if r.place = .extract then some { s with recipe := some (r.validate requiredKb) } else none
  | .extracted none =>
    if r.place = .extract then some { s with recipe := some { r with place := .ended .extract } }
    else none
  | .copied o =>
    match r.place with
    | .preserve =>
      some { s with
        preserved := if hasSize s.burnUID then o.leaves (s.burnUID.getD []) s.preserved
          else s.preserved
        recipe := some { r with place := .remove } }
    | .install k => (specs[k]?).map fun p ↦ s.installPart r k p o
    | .burnUID =>
      some { s with burnUID := s.restore r o, recipe := some { r with place := .verify } }
    | _ => none
  | .unlinked p =>
    if r.place = .remove ∧ s.mayUnlink r p then
      some { s with flash := Function.update s.flash p none }
    else none
  | .rmFailed =>
    if r.place = .remove then some { s with recipe := some { r with rmOk := false } } else none
  | .df freeKb =>
    match r.place with
    | .wait i => some { s with recipe := some (r.round i freeKb) }
    | _ => none
  | .chmodFailed changed =>
    if r.place = .chmod then
      some { s with
        flash := chmod changed s.flash
        recipe := some { r with place := .burnUID, chmodOk := false } }
    else none
  | .next =>
    match r.place with
    | .remove =>
      if !r.rmOk || specs.all fun p ↦ (s.flash p).isNone then
        some { s with recipe := some { r with place := .wait 0 } }
      else none
    | .install k =>
      if specs.length ≤ k then some { s with recipe := some { r with place := .chmod } } else none
    | .chmod =>
      some { s with
        flash := chmod (fun _ ↦ true) s.flash
        recipe := some { r with place := .burnUID } }
    | .verify => some { s with recipe := some { r with place := .ended (s.report r) } }
    | _ => none
  | _ => none

/-- Whether a recipe is running. -/
def Camera.running (s : Camera) : Bool :=
  match s.recipe with
  | none => false
  | some r => match r.place with
    | .ended _ => false
    | _ => true

/-- A step of a camera. One recipe runs at a time. -/
def Camera.step (s : Camera) : Event → Option Camera
  | .stage bundle desired =>
    if s.running then none
    else some { s with recipe := some (.start bundle desired) }
  | .killed => some { s with recipe := none }
  | .powerCut => some { s with preserved := none, recipe := none }
  | e => s.recipe.bind fun r ↦ s.recipeStep r e

/-! ### What a step can do -/

/-- The steps of a camera, one by one. -/
inductive Moves (s : Camera) : Event → Camera → Prop
  | stage (bundle desired) (hrun : s.running = false) :
    Moves s (.stage bundle desired) { s with recipe := some (.start bundle desired) }
  | killed : Moves s .killed { s with recipe := none }
  | powerCut : Moves s .powerCut { s with preserved := none, recipe := none }
  | extractFailed {r} (hr : s.recipe = some r) (hp : r.place = .extract) :
    Moves s (.extracted none) { s with recipe := some { r with place := .ended .extract } }
  | extracted {r} (hr : s.recipe = some r) (hp : r.place = .extract) (requiredKb) :
    Moves s (.extracted (some requiredKb)) { s with recipe := some (r.validate requiredKb) }
  | preserve {r} (hr : s.recipe = some r) (hp : r.place = .preserve) (o) :
    Moves s (.copied o) { s with
      preserved := if hasSize s.burnUID then o.leaves (s.burnUID.getD []) s.preserved
        else s.preserved
      recipe := some { r with place := .remove } }
  | unlinked {r} (hr : s.recipe = some r) (hp : r.place = .remove) (p)
      (hmay : s.mayUnlink r p = true) :
    Moves s (.unlinked p) { s with flash := Function.update s.flash p none }
  | rmFailed {r} (hr : s.recipe = some r) (hp : r.place = .remove) :
    Moves s .rmFailed { s with recipe := some { r with rmOk := false } }
  | removed {r} (hr : s.recipe = some r) (hp : r.place = .remove)
      (hempty : r.rmOk = true → ∀ p, s.flash p = none) :
    Moves s .next { s with recipe := some { r with place := .wait 0 } }
  | round {r i} (hr : s.recipe = some r) (hp : r.place = .wait i) (freeKb) :
    Moves s (.df freeKb) { s with recipe := some (r.round i freeKb) }
  | part {r k p} (hr : s.recipe = some r) (hp : r.place = .install k) (hk : specs[k]? = some p)
      (o) : Moves s (.copied o) (s.installPart r k p o)
  | laid {r k} (hr : s.recipe = some r) (hp : r.place = .install k) (hk : specs.length ≤ k) :
    Moves s .next { s with recipe := some { r with place := .chmod } }
  | chmod {r} (hr : s.recipe = some r) (hp : r.place = .chmod) :
    Moves s .next { s with
      flash := chmod (fun _ ↦ true) s.flash
      recipe := some { r with place := .burnUID } }
  | chmodFailed {r} (hr : s.recipe = some r) (hp : r.place = .chmod) (changed) :
    Moves s (.chmodFailed changed) { s with
      flash := chmod changed s.flash
      recipe := some { r with place := .burnUID, chmodOk := false } }
  | restore {r} (hr : s.recipe = some r) (hp : r.place = .burnUID) (o) :
    Moves s (.copied o)
      { s with burnUID := s.restore r o, recipe := some { r with place := .verify } }
  | verify {r} (hr : s.recipe = some r) (hp : r.place = .verify) :
    Moves s .next { s with recipe := some { r with place := .ended (s.report r) } }

/-- Every step of the recipe is one of these. -/
private theorem moves_of_recipeStep {s t : Camera} {r : Recipe} {e : Event}
    (hr : s.recipe = some r) (h : s.recipeStep r e = some t) : Moves s e t := by
  cases e with
  | stage | killed | powerCut => cases h
  | extracted requiredKb =>
    cases requiredKb with
    | none =>
      rw [Camera.recipeStep] at h
      split at h
      · next hp =>
        cases h
        exact .extractFailed hr hp
      · cases h
    | some requiredKb =>
      rw [Camera.recipeStep] at h
      split at h
      · next hp =>
        cases h
        exact .extracted hr hp requiredKb
      · cases h
  | copied o =>
    rw [Camera.recipeStep] at h
    split at h
    · next hp =>
      cases h
      exact .preserve hr hp o
    · next k hp =>
      obtain ⟨p, hk, rfl⟩ := Option.map_eq_some_iff.mp h
      exact .part hr hp hk o
    · next hp =>
      cases h
      exact .restore hr hp o
    · cases h
  | unlinked p =>
    rw [Camera.recipeStep] at h
    split at h
    · next hp =>
      cases h
      exact .unlinked hr hp.1 p hp.2
    · cases h
  | rmFailed =>
    rw [Camera.recipeStep] at h
    split at h
    · next hp =>
      cases h
      exact .rmFailed hr hp
    · cases h
  | chmodFailed changed =>
    rw [Camera.recipeStep] at h
    split at h
    · next hp =>
      cases h
      exact .chmodFailed hr hp changed
    · cases h
  | df freeKb =>
    rw [Camera.recipeStep] at h
    split at h
    · next i hp =>
      cases h
      exact .round hr hp freeKb
    · cases h
  | next =>
    rw [Camera.recipeStep] at h
    split at h
    · next hp =>
      split at h
      · next hempty =>
        cases h
        refine .removed hr hp fun hrm p ↦ ?_
        rw [hrm, Bool.not_true, Bool.false_or] at hempty
        exact Option.isNone_iff_eq_none.mp (List.all_eq_true.mp hempty p (mem_specs p))
      · cases h
    · next k hp =>
      split at h
      · next hk =>
        cases h
        exact .laid hr hp hk
      · cases h
    · next hp =>
      cases h
      exact .chmod hr hp
    · next hp =>
      cases h
      exact .verify hr hp
    · cases h

theorem moves_of_step {s t : Camera} {e : Event} (h : s.step e = some t) : Moves s e t := by
  cases e with
  | stage bundle desired =>
    rw [Camera.step] at h
    split at h
    · cases h
    · next hrun =>
      cases h
      exact .stage bundle desired (by simpa using hrun)
  | killed =>
    cases h
    exact .killed
  | powerCut =>
    cases h
    exact .powerCut
  | extracted | copied | unlinked | rmFailed | chmodFailed | df | next =>
    obtain ⟨r, hr, h⟩ := Option.bind_eq_some_iff.mp h
    exact moves_of_recipeStep hr h

/-! ### How far a recipe is -/

/-- The bytes of a file on the flash. -/
def content (flash : Disk) (p : Part) : Option Bytes := (flash p).map (·.content)

/-- The bytes of a file of the bundle. -/
def Bundle.content (b : Bundle) (p : Part) : Option Bytes := (b.file p).map (·.content)

/-- Of a flash, phase C leaves this: nothing, or where `rm` had an error, some of the files. -/
def LeftOf (rmOk : Bool) (before left : Disk) : Prop :=
  ∀ p, left p = none ∨ rmOk = false ∧ left p = before p

/-- The files of the bundle, over what was left. -/
def Bundle.over (b : Bundle) (left : Disk) (p : Part) : Option Bytes :=
  (b.content p).or ((left p).map (·.content))

/-- Phase C leaves this of a flash of `F`. -/
def Recipe.Leaves (F : Disk → Prop) (r : Recipe) (left : Disk) : Prop :=
  ∃ before, F before ∧ LeftOf r.rmOk before left

/-- What the loop of phase E makes of what was left: the files are there up to one, and all of them
are where no `cp` failed. -/
structure Laid (b : Bundle) (freeOk installOk : Bool) (left flash : Disk) : Prop where
  upTo : ∃ k, CopiedUpTo specs (b.over left) (content left) (content flash) k
  whole : installOk = true → content flash = b.over left
  gc : freeOk = false → flash = left

/-- A launcher beside an executable `ap2p` is executable. -/
def Launchable (flash : Disk) : Prop :=
  (flash .ap2p).any (·.exec) = true → (flash .launcher).all (·.exec) = true

/-- What is on the flash at each place of the recipe, where `F` holds of the flash that it was
started on. -/
def Recipe.Progress (F : Disk → Prop) (r : Recipe) (s : Camera) : Prop :=
  match r.place with
  | .extract | .preserve | .ended .extract | .ended .validate => F s.flash
  | .remove => ∃ before, F before ∧ ∀ p, s.flash p = none ∨ s.flash p = before p
  | .wait _ | .ended .gc => r.Leaves F s.flash
  | .install k =>
    r.freeOk = true ∧ r.installOk = true ∧ ∃ left, r.Leaves F left ∧
      CopiedFirst specs (r.bundle.over left) (content left) (content s.flash) k
  | .chmod =>
    r.freeOk = true ∧ ∃ left, r.Leaves F left ∧ Laid r.bundle r.freeOk r.installOk left s.flash
  | .burnUID | .verify =>
    (∃ left, r.Leaves F left ∧ Laid r.bundle r.freeOk r.installOk left s.flash) ∧
      (r.installOk = true → r.chmodOk = true → Launchable s.flash)
  | .ended .install =>
    ∃ left, r.Leaves F left ∧
      ∃ k, CopiedUpTo specs (r.bundle.over left) (content left) (content s.flash) k
  | .ended .installed =>
    (∃ left, r.Leaves F left ∧ content s.flash = r.bundle.over left) ∧
      (r.chmodOk = true → Launchable s.flash) ∧ s.verified = true

/-- Every recipe works on a bundle of `B`, and started on a flash of `F`. -/
def Camera.Inv (B : Bundle → Prop) (F : Disk → Prop) (s : Camera) : Prop :=
  ∀ r, s.recipe = some r → B r.bundle ∧ r.Progress F s

@[simp] theorem content_eq_none (flash : Disk) (p : Part) :
    content flash p = none ↔ flash p = none :=
  Option.map_eq_none_iff

/-- Only modes change. -/
@[simp] theorem content_chmod (changed : Part → Bool) (flash : Disk) :
    content (chmod changed flash) = content flash := by
  funext p
  unfold chmod
  split
  · by_cases hp : (p = .launcher ∨ p = .ap2p) ∧ changed p = true
    · simp [content, hp, Function.comp_def]
    · simp [content, hp]
  · rfl

theorem launchable_chmod (flash : Disk) : Launchable (chmod (fun _ ↦ true) flash) := by
  unfold Launchable chmod
  split
  · intro _
    simp only [true_or, and_true, if_true]
    cases flash .launcher <;> rfl
  · next h => exact fun hexec ↦ absurd hexec h

/-- All files are there, or those behind the loop are not. -/
private theorem content_eq_of_copiedFirst {r : Recipe} {left flash : Disk} {k : Nat}
    (h : CopiedFirst specs (r.bundle.over left) (content left) (content flash) k)
    (hk : specs.length ≤ k) : content flash = r.bundle.over left := by
  funext p
  refine h.whole p ?_
  rw [List.take_of_length_le hk]
  exact mem_specs p

/-- A round of phase D goes on, begins phase E, or gives up. -/
private theorem progress_round {F : Disk → Prop} {s : Camera} {r : Recipe} {i : Nat}
    (h : r.Leaves F s.flash) (freeKb : Nat) : (r.round i freeKb).Progress F s := by
  have hstart := CopiedFirst.start specs (r.bundle.over s.flash) (content s.flash)
  unfold Recipe.round
  split
  · exact ⟨rfl, rfl, s.flash, h, hstart⟩
  · split
    · exact h
    · split
      · exact ⟨rfl, rfl, s.flash, h, hstart⟩
      · exact ⟨⟨s.flash, h, ⟨0, hstart.upTo⟩, nofun, fun _ ↦ rfl⟩, nofun⟩

/-- What `cp` leaves when it succeeds. -/
private theorem content_install {o : Outcome} (h : o.succeeds = true) (f : File)
    (old : Option File) : (o.install f old).map (·.content) = some f.content := by
  cases o with
  | done => rfl
  | short | unopened | unlinked => cases h

/-- A file of the loop is copied, skipped, or ends the loop. -/
private theorem inv_installPart {B : Bundle → Prop} {F : Disk → Prop} {s : Camera} {r : Recipe}
    {k : Nat} {p : Part} (hk : specs[k]? = some p) (hB : B r.bundle) (hfree : r.freeOk = true)
    (hok : r.installOk = true) {left : Disk} (hleft : r.Leaves F left)
    (h : CopiedFirst specs (r.bundle.over left) (content left) (content s.flash) k)
    (o : Outcome) : (s.installPart r k p o).Inv B F := by
  have hp : content s.flash p = content left p := by
    obtain ⟨hlt, rfl⟩ := List.getElem?_eq_some_iff.mp hk
    exact h.behind _ (List.mem_drop_iff_getElem.mpr ⟨0, by simpa using hlt, by simp⟩)
  have hframe (x : Option File) (q : Part) (hq : q ≠ p) :
      content (Function.update s.flash p x) q = content s.flash q := by
    rw [content, Function.update_of_ne hq, content]
  intro r' hr'
  unfold Camera.installPart at hr' ⊢
  cases hf : r.bundle.file p with
  | none =>
    simp only [hf] at hr' ⊢
    cases hr'
    refine ⟨hB, hfree, hok, left, hleft, h.next nodup_specs hk (fun _ _ ↦ rfl) ?_⟩
    rw [hp, Bundle.over, Bundle.content, hf]
    rfl
  | some f =>
    simp only [hf] at hr' ⊢
    by_cases ho : o.succeeds = true
    · rw [if_pos ho] at hr'
      cases hr'
      refine ⟨hB, hfree, hok, left, hleft, h.next nodup_specs hk (hframe _) ?_⟩
      change (Function.update s.flash p _ p).map _ = ((r.bundle.file p).map _).or _
      rw [Function.update_self, hf]
      exact content_install ho f _
    · rw [if_neg ho] at hr'
      cases hr'
      refine ⟨hB, hfree, left, hleft, ⟨k, h.interrupted nodup_specs hk (hframe _)⟩, nofun, ?_⟩
      intro hgc
      rw [hfree] at hgc
      cases hgc

/-- What the closing line says. -/
private theorem progress_report {F : Disk → Prop} {s : Camera} {r : Recipe} {left : Disk}
    (hleft : r.Leaves F left) (h : Laid r.bundle r.freeOk r.installOk left s.flash)
    (hlaunch : r.installOk = true → r.chmodOk = true → Launchable s.flash) (t : Camera)
    (hflash : t.flash = s.flash) (hburn : t.burnUID = s.burnUID) :
    Recipe.Progress F { r with place := .ended (s.report r) } t := by
  unfold Recipe.Progress Camera.report
  by_cases hok : (r.installOk && s.verified) = true
  · rw [if_pos hok]
    rw [Bool.and_eq_true] at hok
    refine ⟨⟨left, hleft, hflash ▸ h.whole hok.1⟩, hflash ▸ hlaunch hok.1, ?_⟩
    rw [← hok.2, Camera.verified, Camera.verified, hflash, hburn]
  · rw [if_neg hok]
    cases hfree : r.freeOk with
    | true => exact ⟨left, hleft, hflash ▸ h.upTo⟩
    | false =>
      obtain rfl := h.gc hfree
      exact hflash ▸ hleft

/-- The modes do not matter to what is laid. -/
private theorem Laid.chmod {b : Bundle} {freeOk installOk : Bool} {left flash : Disk}
    (h : Laid b freeOk installOk left flash) (hfree : freeOk = true) (changed : Part → Bool) :
    Laid b freeOk installOk left (chmod changed flash) where
  upTo := by simpa using h.upTo
  whole := by simpa using h.whole
  gc hgc := by
    rw [hfree] at hgc
    cases hgc

/-- One recipe runs at a time. -/
private theorem Camera.Inv.of_recipe {B : Bundle → Prop} {F : Disk → Prop} {s : Camera} {r : Recipe}
    (hr : s.recipe = some r) (hB : B r.bundle) (hprog : r.Progress F s) : s.Inv B F := by
  intro r' hr'
  cases hr.symm.trans hr'
  exact ⟨hB, hprog⟩

/-- A step keeps how far the recipe is; a recipe starts with a bundle of `B` on a flash of `F`. -/
theorem Camera.Inv.step {B : Bundle → Prop} {F : Disk → Prop} {s t : Camera} {e : Event}
    (h : s.Inv B F) (hstage : ∀ b d, e = .stage b d → s.running = false → B b ∧ F s.flash)
    (hm : Moves s e t) : t.Inv B F := by
  cases hm with
  | stage b d hrun =>
    obtain ⟨hB, hF⟩ := hstage b d rfl hrun
    exact .of_recipe rfl hB hF
  | killed | powerCut =>
    intro r hr
    cases hr
  | @extractFailed r hr hp =>
    obtain ⟨hB, hprog⟩ := h r hr
    rw [Recipe.Progress, hp] at hprog
    exact .of_recipe rfl hB hprog
  | @extracted r hr hp requiredKb =>
    obtain ⟨hB, hprog⟩ := h r hr
    rw [Recipe.Progress, hp] at hprog
    unfold Recipe.validate
    split
    · exact .of_recipe rfl hB hprog
    · exact .of_recipe rfl hB hprog
  | @preserve r hr hp o =>
    obtain ⟨hB, hprog⟩ := h r hr
    rw [Recipe.Progress, hp] at hprog
    exact .of_recipe rfl hB ⟨s.flash, hprog, fun _ ↦ .inr rfl⟩
  | @unlinked r hr hp p hmay =>
    obtain ⟨hB, hprog⟩ := h r hr
    rw [Recipe.Progress, hp] at hprog
    obtain ⟨before, hF, hleft⟩ := hprog
    refine .of_recipe hr hB ?_
    rw [Recipe.Progress, hp]
    refine ⟨before, hF, fun q ↦ ?_⟩
    dsimp only
    by_cases hq : q = p
    · exact .inl (hq ▸ Function.update_self ..)
    · rw [Function.update_of_ne hq]
      exact hleft q
  | @rmFailed r hr hp =>
    obtain ⟨hB, hprog⟩ := h r hr
    rw [Recipe.Progress, hp] at hprog
    refine .of_recipe rfl hB ?_
    rw [Recipe.Progress, hp]
    exact hprog
  | @removed r hr hp hempty =>
    obtain ⟨hB, hprog⟩ := h r hr
    rw [Recipe.Progress, hp] at hprog
    obtain ⟨before, hF, hleft⟩ := hprog
    refine .of_recipe rfl hB ⟨before, hF, fun p ↦ ?_⟩
    by_cases hrm : r.rmOk = true
    · exact .inl (hempty hrm p)
    · exact (hleft p).imp_right fun hp ↦ ⟨(Bool.not_eq_true _).mp hrm, hp⟩
  | @round r i hr hp freeKb =>
    obtain ⟨hB, hprog⟩ := h r hr
    rw [Recipe.Progress, hp] at hprog
    refine .of_recipe rfl ?_ (progress_round hprog freeKb)
    unfold Recipe.round
    split_ifs <;> exact hB
  | @part r k p hr hp hk o =>
    obtain ⟨hB, hprog⟩ := h r hr
    rw [Recipe.Progress, hp] at hprog
    obtain ⟨hfree, hok, left, hleft, hcopied⟩ := hprog
    exact inv_installPart hk hB hfree hok hleft hcopied o
  | @laid r k hr hp hk =>
    obtain ⟨hB, hprog⟩ := h r hr
    rw [Recipe.Progress, hp] at hprog
    obtain ⟨hfree, -, left, hleft, hcopied⟩ := hprog
    refine .of_recipe rfl hB ⟨hfree, left, hleft, ⟨k, hcopied.upTo⟩,
      fun _ ↦ content_eq_of_copiedFirst hcopied hk, ?_⟩
    intro hgc
    rw [show r.freeOk = true from hfree] at hgc
    cases hgc
  | @chmod r hr hp =>
    obtain ⟨hB, hprog⟩ := h r hr
    rw [Recipe.Progress, hp] at hprog
    obtain ⟨hfree, left, hleft, hlaid⟩ := hprog
    exact .of_recipe rfl hB
      ⟨⟨left, hleft, hlaid.chmod hfree _⟩, fun _ _ ↦ launchable_chmod s.flash⟩
  | @chmodFailed r hr hp changed =>
    obtain ⟨hB, hprog⟩ := h r hr
    rw [Recipe.Progress, hp] at hprog
    obtain ⟨hfree, left, hleft, hlaid⟩ := hprog
    exact .of_recipe rfl hB ⟨⟨left, hleft, hlaid.chmod hfree changed⟩, nofun⟩
  | @restore r hr hp o =>
    obtain ⟨hB, hprog⟩ := h r hr
    rw [Recipe.Progress, hp] at hprog
    exact .of_recipe rfl hB hprog
  | @verify r hr hp =>
    obtain ⟨hB, hprog⟩ := h r hr
    rw [Recipe.Progress, hp] at hprog
    obtain ⟨⟨left, hleft, hlaid⟩, hlaunch⟩ := hprog
    exact .of_recipe rfl hB (progress_report hleft hlaid hlaunch _ rfl rfl)

/-! ### What the recipe ends in -/

/-- The recipe takes this step itself. -/
def Event.own : Event → Bool
  | .stage .. | .killed | .powerCut => false
  | _ => true

/-- What each closing line of the recipe says about the flash, with what it was before and what
phase C left of it. -/
def Report.Tells (b : Bundle) (chmodOk : Bool) (before left : Disk) (t : Camera) : Report → Prop
  | .extract | .validate => t.flash = before
  | .gc => t.flash = left
  | .install => ∃ k, CopiedUpTo specs (b.over left) (content left) (content t.flash) k
  | .installed =>
    content t.flash = b.over left ∧ (∀ p ∈ validated, (t.flash p).isSome = true) ∧
      (t.flash .ap2p).any (·.exec) = true ∧
      (chmodOk = true → (t.flash .launcher).any (·.exec) = true) ∧ hasSize t.burnUID = true

/-- The final verification looks at every file of phase A. -/
private theorem isSome_of_verified {s : Camera} (h : s.verified = true) {p : Part}
    (hp : p ∈ validated) : (s.flash p).isSome = true := by
  simp only [Camera.verified, Bool.and_eq_true] at h
  simp only [validated, List.mem_cons, List.not_mem_nil, or_false] at hp
  rcases hp with rfl | rfl | rfl | rfl | rfl | rfl
  · exact Option.isSome_of_any h.1.1.1.1.1.1
  · exact h.1.2
  · exact h.1.1.1.2
  · exact h.1.1.1.1.2
  · exact h.1.1.1.1.1.2
  · exact h.1.1.2

/-- An install that was verified is whole and can be launched. -/
private theorem tells_installed {b : Bundle} {chmodOk : Bool} {before left : Disk} {t : Camera}
    (hcontent : content t.flash = b.over left) (hlaunch : chmodOk = true → Launchable t.flash)
    (hver : t.verified = true) : Report.Tells b chmodOk before left t .installed := by
  have hverified := hver
  simp only [Camera.verified, Bool.and_eq_true] at hverified
  have hexec : (t.flash .ap2p).any (·.exec) = true := hverified.1.1.1.1.1.1
  refine ⟨hcontent, fun p hp ↦ isSome_of_verified hver hp, hexec, fun hmode ↦ ?_, hverified.2⟩
  obtain ⟨f, hf⟩ := Option.isSome_iff_exists.mp
    (isSome_of_verified hver (p := .launcher) (by decide))
  have hall := hlaunch hmode hexec
  rw [hf] at hall ⊢
  exact hall

/-- Only the recipe's end writes a Device ID, and only where there is none. -/
theorem burnUID_of_moves {s t : Camera} {e : Event} (hm : Moves s e t)
    (h : hasSize s.burnUID = true) : t.burnUID = s.burnUID := by
  cases hm with
  | @part r k p hr hp hk o =>
    unfold Camera.installPart
    split <;> rfl
  | restore => exact if_pos h
  | stage | killed | powerCut | extractFailed | extracted | preserve | unlinked | rmFailed
  | removed | round | laid | chmod | chmodFailed | verify => rfl

/-- The Device ID of a camera that has one is kept, whatever happens. -/
theorem burnUID_of_run {s t : Camera} {ls : List Event} (h : hasSize s.burnUID = true)
    (hr : run Camera.step s ls = some t) : t.burnUID = s.burnUID := by
  refine @invariant_of_run _ _ Camera.step (fun t ↦ t.burnUID = s.burnUID) ?_ _ _ _ rfl hr
  intro u e v hu hstep
  rw [burnUID_of_moves (moves_of_step hstep) (hu ▸ h), hu]

/-- A recipe that reaches its end tells what it left: the flash as it was; what `rm` left of it,
which is nothing unless `rm` had an error; over that, a beginning of the bundle in the order of the
loop; or over that, the whole bundle with an `ap2p` that can be executed, and a launcher that can be
unless `chmod` had an error. In each case the Device ID that the camera had is still there. -/
theorem tells_of_ended {s t : Camera} {b : Bundle} {desired : Option Bytes} {ls : List Event}
    (hown : ∀ e ∈ ls, e.own = true)
    (hr : run Camera.step s (.stage b desired :: ls) = some t) {r : Recipe}
    (ht : t.recipe = some r) {report : Report} (hend : r.place = .ended report) :
    (∃ left, LeftOf r.rmOk s.flash left ∧ report.Tells b r.chmodOk s.flash left t) ∧
      (hasSize s.burnUID = true → t.burnUID = s.burnUID) := by
  refine ⟨?_, fun hsize ↦ burnUID_of_run hsize hr⟩
  obtain ⟨u, hu, hrest⟩ := Option.bind_eq_some_iff.mp hr
  have hinv : u.Inv (· = b) (· = s.flash) := by
    rw [Camera.step] at hu
    split at hu
    · cases hu
    · cases hu
      intro r hr
      cases hr
      exact ⟨rfl, rfl⟩
  have hkept : t.Inv (· = b) (· = s.flash) := by
    refine invariant_run Camera.step (C := fun _ e ↦ e.own = true) ?_
      (.of_forall Camera.step (fun _ _ he ↦ he) hown u) hinv hrest
    intro v e w he hv hstep
    refine hv.step ?_ (moves_of_step hstep)
    rintro b' d' rfl
    cases he
  obtain ⟨hb, hprog⟩ := hkept r ht
  rw [Recipe.Progress, hend] at hprog
  subst hb
  cases report with
  | extract | validate => exact ⟨fun _ ↦ none, fun _ ↦ .inl rfl, hprog⟩
  | gc =>
    obtain ⟨before, rfl, hleft⟩ := hprog
    exact ⟨t.flash, hleft, rfl⟩
  | install =>
    obtain ⟨left, ⟨before, rfl, hleft⟩, hcopied⟩ := hprog
    exact ⟨left, hleft, hcopied⟩
  | installed =>
    obtain ⟨⟨left, ⟨before, rfl, hleft⟩, hcontent⟩, hlaunch, hver⟩ := hprog
    exact ⟨left, hleft, tells_installed hcontent hlaunch hver⟩

/-- A bundle with one byte for each file. -/
def release : Bundle :=
  fun p ↦ some (.regular ⟨[(specs.idxOf p).toUInt8], p = .ap2p || p = .launcher⟩)

/-- A camera that was never flashed. -/
def factory : Camera := ⟨fun _ ↦ none, none, none, none⟩

/-- A recipe to which nothing bad happens. -/
def smoothly : List Event :=
  [.extracted (some 900), .copied (.done false), .next, .df 2000] ++
    List.replicate 8 (.copied (.done false)) ++ [.next, .next, .copied (.done false), .next]

theorem tells_of_ended_release : ∃ t r,
    run Camera.step factory (.stage release (some [65]) :: smoothly) = some t ∧
      t.recipe = some r ∧
      (∃ left, LeftOf r.rmOk factory.flash left ∧
        Report.installed.Tells release r.chmodOk factory.flash left t) ∧
      (hasSize factory.burnUID = true → t.burnUID = factory.burnUID) := by
  obtain ⟨t, ht, hend⟩ : ∃ t,
      run Camera.step factory (.stage release (some [65]) :: smoothly) = some t ∧
        t.recipe.any (·.place = .ended .installed) = true :=
    exists_run Camera.step _ (by decide)
  obtain ⟨r, hr, hplace⟩ := Option.any_eq_true _ _ |>.mp hend
  exact ⟨t, r, ht, hr, tells_of_ended (by decide) ht hr (by simpa using hplace)⟩

-- Where the flash cannot be written to, the old install stands under the closing line.
example : ∃ t,
    run Camera.step factory (.stage release (some [65]) :: smoothly ++
      [.stage release none, .extracted (some 900), .copied (.done false), .rmFailed, .next,
        .df 2000, .copied .unopened, .next, .copied .unopened, .next]) = some t ∧
      (t.recipe.any (·.place = .ended .install) &&
        specs.all fun p ↦ content t.flash p = release.content p) = true :=
  exists_run Camera.step _ (by decide)

/-! ### What a camera starts with -/

/-- A launcher on the flash has the programs of a bundle beside it. -/
def Bootable (b : Bundle) (flash : Disk) : Prop :=
  flash .launcher ≠ none →
    ∀ p ∈ [Part.ap2p, .libcurl, .libpaho], content flash p = b.content p

/-- The recipe is killed, or the power cut. -/
def Event.stops : Event → Bool
  | .killed | .powerCut => true
  | _ => false

/-- The recipe is in phase C. -/
def Camera.removing (s : Camera) : Bool := s.recipe.any (·.place = .remove)

/-- The recipe comes to a stop while the old install is being removed and its launcher is still
there. -/
def Camera.unlucky (s : Camera) (e : Event) : Bool :=
  e.stops && s.removing && (s.flash .launcher).isSome

/-- `rm` has an error. -/
def Event.rmFails : Event → Bool
  | .rmFailed => true
  | _ => false

/-- Over nothing, the files are those of the bundle. -/
private theorem over_of_none {b : Bundle} {left : Disk} (h : ∀ p, left p = none) :
    b.over left = b.content := by
  funext p
  rw [Bundle.over, h p]
  exact Option.or_none

/-- In the order of the loop the launcher comes behind the programs. -/
private theorem bootable_of_copiedUpTo {b : Bundle} {left flash : Disk} {k : Nat}
    (hnone : ∀ p, left p = none)
    (h : CopiedUpTo specs (b.over left) (content left) (content flash) k) : Bootable b flash := by
  rw [over_of_none hnone] at h
  intro hlauncher p hp
  have hchanged : content flash .launcher ≠ content left .launcher := by
    rw [(content_eq_none left _).mpr (hnone _)]
    exact mt (content_eq_none _ _).mp hlauncher
  simp only [List.mem_cons, List.not_mem_nil, or_false] at hp
  rcases hp with rfl | rfl | rfl
  · exact @CopiedUpTo.whole_of_changed _ _ specs _ _ _ k 0 3 h _ _ rfl rfl (by decide) hchanged
  · exact @CopiedUpTo.whole_of_changed _ _ specs _ _ _ k 1 3 h _ _ rfl rfl (by decide) hchanged
  · exact @CopiedUpTo.whole_of_changed _ _ specs _ _ _ k 2 3 h _ _ rfl rfl (by decide) hchanged

private theorem bootable_of_launcher {b : Bundle} {flash : Disk} (h : flash .launcher = none) :
    Bootable b flash :=
  fun hlauncher ↦ absurd h hlauncher

/-- The flash is bootable with one of some bundles. -/
def SomeBootable (known : Bundle → Prop) (flash : Disk) : Prop :=
  ∃ b, known b ∧ Bootable b flash

/-- Where `rm` had no error, phase C leaves nothing. -/
private theorem Recipe.Leaves.eq_none {F : Disk → Prop} {r : Recipe} {left : Disk}
    (h : r.Leaves F left) (hrm : r.rmOk = true) (p : Part) : left p = none := by
  obtain ⟨before, -, hleft⟩ := h
  obtain hp | ⟨hfailed, -⟩ := hleft p
  · exact hp
  · rw [hrm] at hfailed
    cases hfailed

/-- Away from the removal the flash is bootable at every place of the recipe. -/
private theorem someBootable_of_progress {known : Bundle → Prop} {s : Camera} {r : Recipe}
    (hb : known r.bundle) (hrm : r.rmOk = true) (h : r.Progress (SomeBootable known) s)
    (hremove : r.place = .remove → s.flash .launcher = none) : SomeBootable known s.flash := by
  have hcopied {left : Disk} (hleft : r.Leaves (SomeBootable known) left)
      (hupTo : ∃ k, CopiedUpTo specs (r.bundle.over left) (content left) (content s.flash) k) :
      SomeBootable known s.flash := by
    obtain ⟨k, hk⟩ := hupTo
    exact ⟨r.bundle, hb, bootable_of_copiedUpTo (hleft.eq_none hrm) hk⟩
  unfold Recipe.Progress at h
  split at h
  · exact h
  · exact h
  · exact h
  · exact h
  · next hp => exact ⟨r.bundle, hb, bootable_of_launcher (hremove hp)⟩
  · exact ⟨r.bundle, hb, bootable_of_launcher (h.eq_none hrm .launcher)⟩
  · exact ⟨r.bundle, hb, bootable_of_launcher (h.eq_none hrm .launcher)⟩
  · obtain ⟨-, -, left, hleft, hfirst⟩ := h
    exact hcopied hleft ⟨_, hfirst.upTo⟩
  · obtain ⟨-, left, hleft, hlaid⟩ := h
    exact hcopied hleft hlaid.upTo
  · obtain ⟨⟨left, hleft, hlaid⟩, -⟩ := h
    exact hcopied hleft hlaid.upTo
  · obtain ⟨⟨left, hleft, hlaid⟩, -⟩ := h
    exact hcopied hleft hlaid.upTo
  · obtain ⟨left, hleft, hupTo⟩ := h
    exact hcopied hleft hupTo
  · obtain ⟨⟨left, hleft, hcontent⟩, -⟩ := h
    rw [over_of_none (hleft.eq_none hrm)] at hcontent
    exact ⟨r.bundle, hb, fun _ p _ ↦ congrFun hcontent p⟩

/-- The recipe had no error of `rm`. -/
private def Removes (s : Camera) : Prop := ∀ r, s.recipe = some r → r.rmOk = true

private theorem Removes.step {s t : Camera} {e : Event} (he : e.rmFails = false)
    (h : Removes s) (hm : Moves s e t) : Removes t := by
  cases hm with
  | stage b d hrun =>
    intro r hr
    cases hr
    rfl
  | killed | powerCut => exact nofun
  | rmFailed => cases he
  | @part r₀ k p hr₀ hp hk o =>
    intro r hr
    unfold Camera.installPart at hr
    split at hr
    · cases hr
      exact h r₀ hr₀
    · cases hr
      split <;> exact h r₀ hr₀
  | @extracted r₀ hr₀ hp requiredKb =>
    intro r hr
    cases hr
    unfold Recipe.validate
    split <;> exact h r₀ hr₀
  | @round r₀ i hr₀ hp freeKb =>
    intro r hr
    cases hr
    unfold Recipe.round
    split_ifs <;> exact h r₀ hr₀
  | unlinked => exact h
  | @extractFailed r₀ hr₀ | @preserve r₀ hr₀ | @removed r₀ hr₀ | @laid r₀ _ hr₀ | @chmod r₀ hr₀
  | @chmodFailed r₀ hr₀ | @restore r₀ hr₀ | @verify r₀ hr₀ =>
    intro r hr
    cases hr
    exact h r₀ hr₀

/-- A recipe works towards a bootable flash, and where none was started, the flash is so. -/
private structure Ready (known : Bundle → Prop) (s : Camera) : Prop where
  inv : s.Inv known (SomeBootable known)
  removes : Removes s
  start : s.recipe = none → SomeBootable known s.flash

private theorem Ready.someBootable {known : Bundle → Prop} {s : Camera} (h : Ready known s)
    (hremove : ∀ r, s.recipe = some r → r.place = .remove → s.flash .launcher = none) :
    SomeBootable known s.flash := by
  cases hr : s.recipe with
  | none => exact h.start hr
  | some r =>
    obtain ⟨hb, hprog⟩ := h.inv r hr
    exact someBootable_of_progress hb (h.removes r hr) hprog (hremove r hr)

/-- A step that is not unlucky and no error of `rm`, and that stages a known bundle if any, keeps a
camera ready. -/
private theorem Ready.step {known : Bundle → Prop} {s t : Camera} {e : Event}
    (hknown : ∀ b d, e = .stage b d → known b) (hlucky : s.unlucky e = false)
    (hrm : e.rmFails = false) (h : Ready known s) (hstep : s.step e = some t) :
    Ready known t := by
  have hm := moves_of_step hstep
  refine ⟨h.inv.step ?_ hm, h.removes.step hrm hm, ?_⟩
  · intro b d he hrun
    refine ⟨hknown b d he, h.someBootable ?_⟩
    intro r hr hp
    rw [Camera.running, hr] at hrun
    simp [hp] at hrun
  · intro hnone
    have hstopped (he : e.stops = true) : SomeBootable known s.flash := by
      refine h.someBootable fun r hr hp ↦ ?_
      rw [Camera.unlucky, he, Camera.removing, hr] at hlucky
      simpa [hp] using hlucky
    cases hm with
    | killed | powerCut => exact hstopped rfl
    | @part r k p hr hp hk o =>
      unfold Camera.installPart at hnone
      split at hnone <;> cases hnone
    | @unlinked r hr hp p hmay =>
      rw [hr] at hnone
      cases hnone
    | stage | extractFailed | extracted | preserve | rmFailed | removed | round | laid | chmod
    | chmodFailed | restore | verify => cases hnone

/-- Whenever a camera starts, after any number of recipes with any bundles, each of which may end
in any of its ways or with the power cut at any point other than between the first file that it
removes and the launcher, a launcher on the flash has beside it, whole, the programs of one of the
bundles: as long as `rm` has no error. -/
theorem bootable_of_run {b₀ : Bundle} {s t : Camera} {ls : List Event} (hs : s.recipe = none)
    (hboot : Bootable b₀ s.flash) (hrm : ∀ e ∈ ls, e.rmFails = false)
    (hlucky : Always Camera.step (fun s e ↦ s.unlucky e = false) s ls)
    (hr : run Camera.step s ls = some t) (ht : t.recipe = none) :
    ∃ b, (b = b₀ ∨ ∃ desired, .stage b desired ∈ ls) ∧ Bootable b t.flash := by
  let known (b : Bundle) : Prop := b = b₀ ∨ ∃ desired, .stage b desired ∈ ls
  have hready : Ready known s := by
    refine ⟨fun r hr ↦ ?_, fun r hr ↦ ?_, fun _ ↦ ⟨b₀, .inl rfl, hboot⟩⟩
    · rw [hs] at hr
      cases hr
    · rw [hs] at hr
      cases hr
  have hstaged : Always Camera.step (fun _ e ↦ e ∈ ls) s ls :=
    .of_forall Camera.step (fun _ _ he ↦ he) (fun _ he ↦ he) s
  have hkept : Ready known t := by
    refine invariant_run Camera.step ?_ (hlucky.and Camera.step hstaged) hready hr
    rintro u e v ⟨hu, he⟩ hready hstep
    refine hready.step ?_ hu (hrm e he) hstep
    rintro b d rfl
    exact .inr ⟨d, he⟩
  exact hkept.start ht

theorem bootable_of_run_release : ∃ t,
    run Camera.step factory (.stage release (some [65]) :: smoothly ++ [.powerCut]) = some t ∧
      ∃ b, (b = release ∨ ∃ desired, .stage b desired ∈
        .stage release (some [65]) :: smoothly ++ [.powerCut]) ∧ Bootable b t.flash := by
  obtain ⟨t, ht, hnone⟩ : ∃ t,
      run Camera.step factory (.stage release (some [65]) :: smoothly ++ [.powerCut]) = some t ∧
        t.recipe.isNone = true :=
    exists_run Camera.step _ (by decide)
  exact ⟨t, ht, bootable_of_run rfl (fun h ↦ absurd rfl h) (by decide) (by decide) ht
    (Option.isNone_iff_eq_none.mp hnone)⟩

-- What the condition is for: the directory is removed first, and a cut before the launcher
-- leaves it without a program.
example : ∃ t,
    run Camera.step factory (.stage release none :: smoothly ++
      [.stage release none, .extracted (some 900), .copied (.done false), .unlinked .ap2p,
        .powerCut]) = some t ∧
      ((t.flash .launcher).isSome && (t.flash .ap2p).isNone) = true :=
  exists_run Camera.step _ (by decide)

/-! ### Where a Device ID comes from -/

/-- A Device ID, or the beginning of one that some `cp` was interrupted in. -/
def FromFlasher (ls : List Event) (c : Bytes) : Prop :=
  ∃ b id, .stage b (some id) ∈ ls ∧ c <+: id ∧
    (c = id ∨ ∃ anew n, .copied (.short anew n) ∈ ls)

/-- What a file holds, if anything, is from the flasher. -/
private def Staged (ls : List Event) (file : Option Bytes) : Prop :=
  hasSize file = true → ∃ c, file = some c ∧ FromFlasher ls c

private theorem exists_of_hasSize {file : Option Bytes} (h : hasSize file = true) :
    ∃ c, file = some c := by
  cases file with
  | none => cases h
  | some c => exact ⟨c, rfl⟩

/-- A copy of what is from the flasher is from the flasher. -/
private theorem Staged.leaves {ls : List Event} {src old : Option Bytes} (hsrc : Staged ls src)
    (hold : Staged ls old) (hsize : hasSize src = true) {o : Outcome} (ho : .copied o ∈ ls) :
    Staged ls (o.leaves (src.getD []) old) := by
  obtain ⟨c, rfl, b, id, hid, hsub, hwhole⟩ := hsrc hsize
  intro _
  cases o with
  | done => exact ⟨c, rfl, b, id, hid, hsub, hwhole⟩
  | short anew n =>
    exact ⟨c.take n, rfl, b, id, hid, (c.take_prefix n).trans hsub, .inr ⟨anew, n, ho⟩⟩
  | unopened => exact hold ‹_›
  | unlinked => cases ‹hasSize none = true›

/-- All that a camera has of Device IDs is from the flasher. -/
private def AllStaged (ls : List Event) (s : Camera) : Prop :=
  Staged ls s.burnUID ∧ Staged ls s.preserved ∧ ∀ r, s.recipe = some r → Staged ls r.desired

private theorem AllStaged.step {ls : List Event} {s t : Camera} {e : Event} (he : e ∈ ls)
    (h : AllStaged ls s) (hstep : s.step e = some t) : AllStaged ls t := by
  obtain ⟨hburn, hpreserved, hdesired⟩ := h
  cases moves_of_step hstep with
  | stage b d hrun =>
    refine ⟨hburn, hpreserved, ?_⟩
    intro r hr hsize
    cases hr
    obtain ⟨id, rfl⟩ := exists_of_hasSize hsize
    exact ⟨id, rfl, b, id, he, List.prefix_refl id, .inl rfl⟩
  | killed => exact ⟨hburn, hpreserved, nofun⟩
  | powerCut => exact ⟨hburn, nofun, nofun⟩
  | @preserve r hr hp o =>
    refine ⟨hburn, ?_, fun r' hr' ↦ by cases hr'; exact hdesired r hr⟩
    dsimp only
    split
    · next hsize => exact hburn.leaves hpreserved hsize he
    · exact hpreserved
  | @restore r hr hp o =>
    refine ⟨?_, hpreserved, fun r' hr' ↦ by cases hr'; exact hdesired r hr⟩
    unfold Camera.restore
    split
    · exact hburn
    · split
      · next hsize => exact hpreserved.leaves hburn hsize he
      · split
        · next hsize => exact (hdesired r hr).leaves hburn hsize he
        · exact hburn
  | @part r k p hr hp hk o =>
    unfold Camera.installPart
    split
    · exact ⟨hburn, hpreserved, fun r' hr' ↦ by cases hr'; exact hdesired r hr⟩
    · refine ⟨hburn, hpreserved, fun r' hr' ↦ ?_⟩
      cases hr'
      split <;> exact hdesired r hr
  | @unlinked r hr hp p hmay => exact ⟨hburn, hpreserved, hdesired⟩
  | @extracted r hr hp requiredKb =>
    refine ⟨hburn, hpreserved, fun r' hr' ↦ ?_⟩
    cases hr'
    unfold Recipe.validate
    split <;> exact hdesired r hr
  | @round r i hr hp freeKb =>
    refine ⟨hburn, hpreserved, fun r' hr' ↦ ?_⟩
    cases hr'
    unfold Recipe.round
    split_ifs <;> exact hdesired r hr
  | @extractFailed r hr | @rmFailed r hr | @removed r hr | @laid r _ hr | @chmod r hr
  | @chmodFailed r hr | @verify r hr =>
    exact ⟨hburn, hpreserved, fun r' hr' ↦ by cases hr'; exact hdesired r hr⟩

/-- A camera that has a Device ID keeps it. Any that it comes by otherwise is one that the flasher
staged, whole, or a beginning of it where a copy came to a bad end; nothing else is ever written
there. -/
theorem burnUID_kept_or_staged {s t : Camera} {ls : List Event} (hs : s.recipe = none)
    (hpreserved : hasSize s.preserved = false) (hr : run Camera.step s ls = some t) :
    (hasSize s.burnUID = true → t.burnUID = s.burnUID) ∧
      (hasSize s.burnUID = false → hasSize t.burnUID = true →
        ∃ c, t.burnUID = some c ∧ FromFlasher ls c) := by
  refine ⟨fun hsize ↦ burnUID_of_run hsize hr, fun hnone ↦ ?_⟩
  have hstart : AllStaged ls s := by
    refine ⟨?_, ?_, ?_⟩
    · intro h
      rw [hnone] at h
      cases h
    · intro h
      rw [hpreserved] at h
      cases h
    · intro r h
      rw [hs] at h
      cases h
  have hkept : AllStaged ls t :=
    invariant_run Camera.step (C := fun _ e ↦ e ∈ ls)
      (fun u e v he hu hstep ↦ hu.step he hstep)
      (.of_forall Camera.step (fun _ _ he ↦ he) (fun _ he ↦ he) s) hstart hr
  exact hkept.1

theorem burnUID_kept_or_staged_release : ∃ t,
    run Camera.step factory (.stage release (some [65]) :: smoothly) = some t ∧
      (hasSize factory.burnUID = true → t.burnUID = factory.burnUID) ∧
      (hasSize factory.burnUID = false → hasSize t.burnUID = true →
        ∃ c, t.burnUID = some c ∧ FromFlasher (.stage release (some [65]) :: smoothly) c) := by
  obtain ⟨t, ht, -⟩ : ∃ t,
      run Camera.step factory (.stage release (some [65]) :: smoothly) = some t ∧
        t.burnUID = some [65] :=
    exists_run Camera.step _ (by decide)
  exact ⟨t, ht, burnUID_kept_or_staged rfl rfl ht⟩

end Kitty.Flash

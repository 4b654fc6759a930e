import Mathlib.Tactic.Common
import CoreSplice.Disk.Basic

/-!
# What a change of one file leaves alone

A run changes the content of the core and nothing else.  Which files there are, and where a name
leads, does not depend on the content of any file, so every later step of a run finds the same
files under the same names.

* `Disk.resolveFile_put`, `Disk.reaches_put` — names lead where they led before.
* `Disk.isFile_put` — a file that was there is there.
* `Disk.isFile_of_resolveFile` — a name that leads to a regular file leads to one that is there.
* `Disk.content_put` — the content of every file after the change of one.
* `Disk.put_put`, `Disk.put_of_not_file` — a file that is changed again, and one that is not there.
-/

namespace CoreSplice.Disk

/-- Whether a regular file stands at the place. -/
def IsFile (disk : Disk) (place : Place) : Prop :=
  (disk.files.lookup place).isSome

instance (disk : Disk) (place : Place) : Decidable (disk.IsFile place) :=
  inferInstanceAs (Decidable ((disk.files.lookup place).isSome = true))

/-! ## Names -/

lemma home_put (disk : Disk) (node : Node) (content : Bytes) :
    (disk.put node content).home = disk.home := by
  cases node <;> rfl

lemma directories_put (disk : Disk) (node : Node) (content : Bytes) :
    (disk.put node content).directories = disk.directories := by
  cases node <;> rfl

lemma blocked_put (disk : Disk) (node : Node) (content : Bytes) :
    (disk.put node content).blocked = disk.blocked := by
  cases node <;> rfl

/-- The places of the files stay as they are. -/
lemma places_put (disk : Disk) (node : Node) (content : Bytes) :
    (disk.put node content).files.map Prod.fst = disk.files.map Prod.fst := by
  cases node with
  | directory | device => rfl
  | file place =>
    simp only [put, List.map_map, List.map_inj_left, Function.comp_apply]
    intro file _
    split
    · rename_i h; exact h.symm
    · rfl

lemma isDirectory_put (disk : Disk) (node : Node) (content : Bytes) (place : Place) :
    (disk.put node content).isDirectory place = disk.isDirectory place := by
  have hmap (d : Disk) : (d.files.map fun file => file.1.dropLast)
      = (d.files.map Prod.fst).map List.dropLast := by
    rw [List.map_map]; rfl
  simp only [isDirectory, home_put, directories_put, hmap, places_put]

lemma any_files_put (disk : Disk) (node : Node) (content : Bytes) (place : Place) :
    ((disk.put node content).files.any fun file => file.1 == place)
      = disk.files.any fun file => file.1 == place := by
  have hany (d : Disk) : (d.files.any fun file => file.1 == place)
      = (d.files.map Prod.fst).any (· == place) := by
    rw [List.any_map]; rfl
  rw [hany, hany, places_put]

lemma enter_put (disk : Disk) (node : Node) (content : Bytes) (place : Place) (step : String) :
    (disk.put node content).enter place step = disk.enter place step := by
  simp only [enter, any_files_put, isDirectory_put]

lemma walk_put (disk : Disk) (node : Node) (content : Bytes) (steps : List String) (start : Node) :
    (disk.put node content).walk start steps = disk.walk start steps := by
  induction steps generalizing start with
  | nil => rfl
  | cons step steps ih =>
    cases start with
    | file | device => rfl
    | directory place => simp only [walk, enter_put, ih]

lemma resolve_put (disk : Disk) (node : Node) (content : Bytes) (name : String) :
    (disk.put node content).resolve name = disk.resolve name := by
  simp only [resolve, walk_put, home_put]

/-- A name leads to the same file, whatever the files hold. -/
@[simp] lemma resolveFile_put (disk : Disk) (node : Node) (content : Bytes) (name : String) :
    (disk.put node content).resolveFile name = disk.resolveFile name := by
  simp only [resolveFile, resolve_put, blocked_put]

@[simp] lemma reaches_put (disk : Disk) (node : Node) (content : Bytes) (name : String) :
    (disk.put node content).reaches name = disk.reaches name := by
  simp only [reaches, resolve_put]

/-! ## Files that are there -/

lemma isFile_iff_mem {disk : Disk} {place : Place} :
    disk.IsFile place ↔ place ∈ disk.files.map Prod.fst := by
  simp only [IsFile]
  generalize disk.files = files
  induction files with
  | nil => simp
  | cons file files ih =>
    obtain ⟨q, c⟩ := file
    by_cases h : place = q
    · simp [h]
    · have hne : (place == q) = false := by simpa using h
      simp only [List.lookup_cons, hne, ih, List.map_cons, List.mem_cons, h, false_or]

@[simp] lemma isFile_put (disk : Disk) (node : Node) (content : Bytes) (place : Place) :
    (disk.put node content).IsFile place ↔ disk.IsFile place := by
  rw [isFile_iff_mem, isFile_iff_mem, places_put]

/-- A step that leads to a file leads to one that is there. -/
lemma isFile_of_enter {disk : Disk} {place q : Place} {step : String}
    (h : disk.enter place step = .ok (.file q)) : disk.IsFile q := by
  simp only [enter] at h
  split at h
  · cases h
  · split at h
    · cases h
    · split at h
      · cases h
      · split at h
        · cases h
        · split at h
          · rename_i hany
            cases h
            obtain ⟨file, hmem, heq⟩ := List.any_eq_true.1 hany
            exact isFile_iff_mem.2 (List.mem_map.2 ⟨file, hmem, by simpa using heq⟩)
          · split at h <;> cases h

lemma isFile_of_walk {disk : Disk} {steps : List String} {start : Node} {place : Place}
    (hstart : ∀ p, start = .file p → disk.IsFile p)
    (h : disk.walk start steps = .ok (.file place)) : disk.IsFile place := by
  induction steps generalizing start with
  | nil =>
    simp only [walk, Except.ok.injEq] at h
    exact hstart place h
  | cons step steps ih =>
    cases start with
    | file p | device d => simp [walk] at h
    | directory p =>
      simp only [walk] at h
      cases hnext : disk.enter p step with
      | error e => rw [hnext] at h; cases h
      | ok next =>
        rw [hnext] at h
        exact ih (fun q hq => isFile_of_enter (hq ▸ hnext)) h

/-- A name that leads to a regular file leads to one that is there. -/
lemma isFile_of_resolveFile {disk : Disk} {name : String} {place : Place}
    (h : disk.resolveFile name = .ok (.file place)) : disk.IsFile place := by
  simp only [resolveFile] at h
  split at h
  · cases h
  · cases h
  · cases h
  · rename_i p hp
    have hfile : disk.IsFile p := by
      simp only [resolve] at hp
      split at hp
      · cases hp
      · split at hp
        · cases hp
        · exact isFile_of_walk (by simp) hp
    split at h
    · cases h
    · cases h; exact hfile

lemma reaches_of_resolveFile {disk : Disk} {name : String} {node : Node}
    (hname : isUnspeakable name = false) (h : disk.resolveFile name = .ok node) :
    disk.reaches name = true := by
  simp only [resolveFile] at h
  simp only [reaches]
  rw [hname]
  cases hr : disk.resolve name with
  | error e => rw [hr] at h; cases h
  | ok n => rfl

/-! ## Content -/

/-- What every file holds after the content of one was changed. -/
lemma content_put {disk : Disk} {place : Place} (h : disk.IsFile place) (content : Bytes)
    (node : Node) :
    (disk.put (.file place) content).content node
      = if node = .file place then content else disk.content node := by
  split
  · rename_i heq
    rw [heq]
    exact content_put_self disk h content
  · rename_i hne
    exact content_put_of_ne disk hne content

/-- What a file is given last is what it keeps. -/
lemma put_put (disk : Disk) (node : Node) (first second : Bytes) :
    (disk.put node first).put node second = disk.put node second := by
  cases node with
  | directory | device => rfl
  | file place =>
    simp only [put, List.map_map, Disk.mk.injEq, true_and, and_true, List.map_inj_left,
      Function.comp_apply]
    intro file _
    by_cases h : file.1 = place <;> simp [h]

/-- Where no regular file stands nothing is changed. -/
lemma put_of_not_file {disk : Disk} {node : Node}
    (h : ∀ place, node = .file place → ¬ disk.IsFile place) (content : Bytes) :
    disk.put node content = disk := by
  cases node with
  | directory | device => rfl
  | file place =>
    have hsame : (disk.files.map fun file => if file.1 = place then (place, content) else file)
        = disk.files := by
      refine (List.map_congr_left ?_).trans (List.map_id _)
      intro file hfile
      have hne : file.1 ≠ place := by
        rintro rfl
        exact h file.1 rfl (isFile_iff_mem.2 (List.mem_map_of_mem hfile))
      rw [if_neg hne, id]
    simp only [put, hsame]

lemma readAt_congr {first second : Disk} {node : Node}
    (h : second.content node = first.content node) (position count : Nat) :
    second.readAt node position count = first.readAt node position count := by
  rcases node with place | place | _ | _
  · rfl
  · simp only [readAt, h]
  · rfl
  · rfl

end CoreSplice.Disk

import Mathlib.Data.List.TakeWhile
import StateProvenance.Library.Runs
import StateProvenance.SnapshotFile

/-! The file-system calls of a save: the image goes to a temporary file, which is then renamed over the
snapshot file. Which outcomes of the calls leave the previous snapshot unharmed. Two names stand for one file only where
the system cuts them to the same name; links and directories are left out. -/

namespace StateProvenance

open Library

/-- The system reads a name up to its first null character. -/
def cName (name : String) : String := String.ofList (name.toList.takeWhile (· ≠ '\x00'))

abbrev Files := String → Option ByteString

def Files.content (files : Files) (name : String) : Option ByteString := files (cName name)

def Files.put (files : Files) (name : String) (content : Option ByteString) : Files :=
  Function.update files (cName name) content

inductive FileEffect
  | truncate (name : String)
  | store (name : String) (bytes : ByteString)
  | remove (name : String)
  | rename (old new : String)

def Files.apply (files : Files) : FileEffect → Files
  | .truncate name => files.put name (some [])
  | .store name bytes => files.put name (some bytes)
  | .remove name => files.put name none
  | .rename old new => (files.put old none).put new (files.content old)

abbrev Files.after (files : Files) (effects : List FileEffect) : Files := Runs.run Files.apply files effects

section Content

variable (files : Files) {name other : String} (content content' : Option ByteString)

lemma Files.content_put (name other : String) :
    (files.put name content).content other = if cName other = cName name then content else files.content other :=
  Function.update_apply files (cName name) content (cName other)

@[simp] lemma Files.content_put_self : (files.put name content).content name = content := by
  rw [content_put, if_pos rfl]

lemma Files.content_put_of_ne (h : cName other ≠ cName name) :
    (files.put name content).content other = files.content other := by
  rw [content_put, if_neg h]

lemma Files.keeps_put {Q : Option ByteString → Prop} {content : Option ByteString} (hcontent : Q content)
    (hother : Q (files.content other)) : Q ((files.put name content).content other) := by
  rw [content_put]
  split
  · exact hcontent
  · exact hother

@[simp] lemma Files.put_put : (files.put name content).put name content' = files.put name content' :=
  Function.update_idem ..

end Content

lemma cName_tmp_of_mem {path : String} (h : '\x00' ∈ path.toList) : cName (path ++ ".tmp") = cName path := by
  rw [cName, cName, String.toList_append]
  congr 1
  generalize path.toList = l at h
  induction l with
  | nil => simp at h
  | cons c l ih =>
    by_cases hc : c = '\x00'
    · simp [hc]
    · rw [List.cons_append, List.takeWhile_cons_of_pos (by simpa), List.takeWhile_cons_of_pos (by simpa),
        ih (List.mem_of_ne_of_mem (Ne.symm hc) h)]

lemma cName_of_not_mem {name : String} (h : '\x00' ∉ name.toList) : cName name = name := by
  rw [cName, List.takeWhile_eq_self_iff.mpr fun c hc => by simpa using ne_of_mem_of_not_mem hc h, String.ofList_toList]

lemma cName_tmp_ne {path : String} (h : '\x00' ∉ path.toList) : cName (path ++ ".tmp") ≠ cName path := by
  have htmp : '\x00' ∉ (path ++ ".tmp").toList := by
    rw [String.toList_append, List.mem_append, not_or]
    exact ⟨h, by decide⟩
  rw [cName_of_not_mem htmp, cName_of_not_mem h]
  intro hsame
  have hlength := congrArg (fun s => s.toList.length) hsame
  rw [String.toList_append, List.length_append, Nat.add_eq_left] at hlength
  exact absurd hlength (by decide)

/-- How the calls end. `stored` counts the bytes that are in the temporary file when the stream is closed, `partway` those
that are in it in between: the stream keeps bytes back, and its destructor drops the error of the last flush. -/
structure CallOutcomes where
  opened : Bool
  written : Bool
  partway : List ℕ
  stored : ℕ
  renamed : Bool
  removed : Bool
  renamedAgain : Bool

def writeEffects (tmp : String) (out : ByteString) (o : CallOutcomes) : List FileEffect :=
  .truncate tmp :: (o.partway ++ [o.stored]).map fun n => .store tmp (out.take n)

def saveFile (s : StoreSnapshot) (path : String) (o : CallOutcomes) :
    Except String (Option String) × List FileEffect :=
  match fileImage s with
  | .error e => (.error e, [])
  | .ok out =>
    let tmp := path ++ ".tmp"
    if !o.opened then (.ok (some ("cannot open temp file for write: " ++ tmp)), [])
    else
      let effects := writeEffects tmp out o
      if !o.written then (.ok (some ("write failed: " ++ tmp)), effects)
      else if o.renamed then (.ok none, effects ++ [.rename tmp path])
      else
        -- The error of the removal is cleared.
        let effects := effects ++ if o.removed then [.remove path] else []
        if o.renamedAgain then (.ok none, effects ++ [.rename tmp path])
        else (.ok (some ("atomic replace failed: " ++ path)), effects)

@[mk_iff] structure SaveUnharmful (s : StoreSnapshot) (path : String) (o : CallOutcomes) (files : Files) :
    Prop where
  onError : ∀ e, (saveFile s path o).1 = .ok (some e) →
    (files.after (saveFile s path o).2).content path = files.content path
  always : Runs.Always Files.apply
    (fun t => t.content path = files.content path ∨ ∃ image, fileImage s = .ok image ∧ t.content path = some image)
    files (saveFile s path o).2

@[mk_iff] structure SafelyReplaced (image : ByteString) (o : CallOutcomes) (previous : Option ByteString) : Prop where
  window : o.renamed = false → o.removed = true → previous = none
  complete : o.renamed = true ∨ o.renamedAgain = true → image.length ≤ o.stored ∨ previous = some (image.take o.stored)

/-- Where the temporary file is the snapshot file itself, that is truncated and rewritten. -/
@[mk_iff] structure SafelyRewritten (image : ByteString) (o : CallOutcomes) (previous : Option ByteString) : Prop where
  empty : previous = some []
  complete : ∀ n ∈ o.partway ++ [o.stored], n = 0 ∨ image.length ≤ n
  onError : o.written = false ∨ o.renamed = false ∧ o.renamedAgain = false → o.stored = 0
  window : o.written = true → o.renamed = false → o.removed = false

section Writes

variable (files : Files) (tmp : String) (image : ByteString) (o : CallOutcomes)

lemma Files.after_writes : Runs.run Files.apply files (writeEffects tmp image o) =
    files.put tmp (some (image.take o.stored)) := by
  have hstores : ∀ sizes (files : Files), files.after ((sizes ++ [o.stored]).map fun n => .store tmp (image.take n)) =
      files.put tmp (some (image.take o.stored)) := by
    intro sizes
    induction sizes with
    | nil => exact fun files => rfl
    | cons n sizes ih => exact fun files => (ih _).trans (files.put_put _ _)
  exact (hstores o.partway _).trans (files.put_put _ _)

lemma always_writes (P : Files → Prop) : Runs.Always Files.apply P files (writeEffects tmp image o) ↔
    P files ∧ P (files.put tmp (some [])) ∧
      ∀ n ∈ o.partway ++ [o.stored], P (files.put tmp (some (image.take n))) := by
  have hstores : ∀ (sizes : List ℕ) (files : Files),
      Runs.Always Files.apply P files (sizes.map fun n => .store tmp (image.take n)) ↔
        P files ∧ ∀ n ∈ sizes, P (files.put tmp (some (image.take n))) := by
    intro sizes
    induction sizes with
    | nil => simp
    | cons n sizes ih =>
      intro files
      rw [List.map_cons, Runs.always_cons, ih, List.forall_mem_cons]
      simp [Files.apply]
  rw [writeEffects, Runs.always_cons, hstores]
  simp [Files.apply]

end Writes

section Unharmful

variable {s : StoreSnapshot} {path : String} {o : CallOutcomes} {files : Files} {image : ByteString}
  (himage : fileImage s = .ok image) (hopened : o.opened = true)

lemma fileImage_ne_nil : fileImage s ≠ .ok [] := by
  intro h
  obtain ⟨payload, hp⟩ := encode_of_fileImage h
  obtain ⟨header, hbytes, hlength, -⟩ := fileImage_parts hp h
  rw [(List.append_eq_nil_iff.mp hbytes.symm).1] at hlength
  contradiction

include himage hopened

lemma saveFile_writes (path : String) :
    ∃ rest, (saveFile s path o).2 = writeEffects (path ++ ".tmp") image o ++ rest := by
  simp only [saveFile, himage, hopened]
  cases o.written with
  | false => exact ⟨[], by simp⟩
  | true =>
    cases o.renamed with
    | true => exact ⟨_, rfl⟩
    | false =>
      cases o.renamedAgain with
      | true => exact ⟨_, List.append_assoc _ _ _⟩
      | false => exact ⟨_, rfl⟩

lemma saveUnharmful_of_not_mem (hpath : '\x00' ∉ path.toList) :
    SaveUnharmful s path o files ↔ (o.written = true → SafelyReplaced image o (files.content path)) := by
  have hne := cName_tmp_ne hpath
  have hkeep := fun content => files.content_put_of_ne content hne.symm
  have htmp := fun (files : Files) => files.content_put_of_ne none hne
  have hpartial : image.take o.stored = image ↔ image.length ≤ o.stored := List.take_eq_self_iff image
  rw [safelyReplaced_iff, saveUnharmful_iff]
  simp only [saveFile, himage, hopened]
  cases o.written with
  | false => simp [always_writes, Files.after_writes, hkeep]
  | true =>
    cases o.renamed with
    | true =>
      simp [Runs.always_append, always_writes, hkeep, Files.after_writes, Files.apply, hpartial,
        eq_comm (a := files.content path), or_comm]
    | false =>
      cases o.removed <;> cases o.renamedAgain <;>
        simp [Runs.always_append, always_writes, hkeep, htmp, Runs.run_append, Files.after_writes, Files.apply, hpartial,
          eq_comm (a := files.content path), or_comm]

lemma saveUnharmful_of_mem (hpath : '\x00' ∈ path.toList) :
    SaveUnharmful s path o files ↔ SafelyRewritten image o (files.content path) := by
  have hput : ∀ (files : Files) content, files.put (path ++ ".tmp") content = files.put path content := by
    intro files content
    rw [Files.put, Files.put, cName_tmp_of_mem hpath]
  have hcontent : ∀ files : Files, files.content (path ++ ".tmp") = files.content path := by
    intro files
    rw [Files.content, Files.content, cName_tmp_of_mem hpath]
  have hnil : image ≠ [] := fun h => fileImage_ne_nil (h ▸ himage)
  have hwhole : ∀ n, image.take n = image ↔ image.length ≤ n := fun n => List.take_eq_self_iff image
  have hlast : (∀ n, n ∈ o.partway ∨ n = o.stored → n = 0 ∨ image.length ≤ n) → o.stored = 0 ∨ image.length ≤ o.stored :=
    fun h => h o.stored (.inr rfl)
  by_cases hempty : files.content path = some []
  · rw [safelyRewritten_iff, saveUnharmful_iff]
    simp only [saveFile, himage, hopened]
    cases o.written with
    | false =>
      simp [always_writes, Files.after_writes, hput, hempty, hwhole, hnil, and_comm]
    | true =>
      cases o.renamed with
      | true =>
        simpa [Runs.always_append, always_writes, Files.after_writes, Files.apply, hput, hcontent, hempty, hwhole,
          hnil] using hlast
      | false =>
        cases o.removed with
        | true =>
          cases o.renamedAgain <;>
            simp [Runs.always_append, always_writes, Runs.run_append, Files.after_writes, Files.apply, hput, hempty]
        | false =>
          cases o.renamedAgain with
          | false => simp [always_writes, Files.after_writes, hput, hempty, hwhole, hnil, and_comm]
          | true =>
            simpa [Runs.always_append, always_writes, Files.after_writes, Files.apply, hput, hcontent, hempty, hwhole,
              hnil] using hlast
  · refine iff_of_false (fun h => ?_) fun h => hempty h.empty
    obtain ⟨rest, hrest⟩ := saveFile_writes himage hopened path
    have halways := h.always
    rw [hrest, Runs.always_append, always_writes, hput, Files.content_put_self] at halways
    rcases halways.1.2.1 with hprevious | ⟨image', himage', hnew⟩
    · exact hempty hprevious.symm
    · obtain rfl := Option.some.inj hnew
      exact fileImage_ne_nil himage'

end Unharmful

theorem saveFile_unharmful_iff (s : StoreSnapshot) (path : String) (o : CallOutcomes) (files : Files) :
    SaveUnharmful s path o files ↔ ∀ image, fileImage s = .ok image → o.opened = true →
      ('\x00' ∈ path.toList → SafelyRewritten image o (files.content path)) ∧
      ('\x00' ∉ path.toList → o.written = true → SafelyReplaced image o (files.content path)) := by
  cases himage : fileImage s with
  | error e => simp [saveUnharmful_iff, saveFile, himage]
  | ok image =>
    cases hopened : o.opened with
    | false => simp [saveUnharmful_iff, saveFile, himage, hopened]
    | true =>
      by_cases hpath : '\x00' ∈ path.toList
      · simp [saveUnharmful_of_mem himage hopened hpath, hpath]
      · simp [saveUnharmful_of_not_mem himage hopened hpath, hpath]

theorem saveFile_loses_previous : ¬ ∀ s path o files, SaveUnharmful s path o files := by
  intro h
  have herror := (h {} "store.bin" ⟨true, true, [], 1000, false, true, false⟩
    fun _ => (fileImage {}).toOption).onError "atomic replace failed: store.bin" (by decide)
  exact absurd herror (by decide)

inductive SaveCalls (snap : StoreSnapshot) (path : String) (o : CallOutcomes) :
    Except String (Option String) × List FileEffect → Prop
  | threw (e : String) (h : fileImage snap = .error e) : SaveCalls snap path o (.error e, [])
  | notOpened (e : String) : SaveCalls snap path o (.ok (some e), [])
  | notReplaced (e : String) (image : ByteString) (h : fileImage snap = .ok image) (removal : List FileEffect)
      (hr : removal = [] ∨ removal = [.remove path]) :
      SaveCalls snap path o (.ok (some e), writeEffects (path ++ ".tmp") image o ++ removal)
  | replaced (image : ByteString) (h : fileImage snap = .ok image) (removal : List FileEffect)
      (hr : removal = [] ∨ removal = [.remove path]) :
      SaveCalls snap path o
        (.ok none, writeEffects (path ++ ".tmp") image o ++ removal ++ [.rename (path ++ ".tmp") path])

inductive SaveEffect (tmp path : String) (Q : Option ByteString → Prop) : FileEffect → Prop
  | truncate : SaveEffect tmp path Q (.truncate tmp)
  | store (bytes : ByteString) (h : Q (some bytes)) : SaveEffect tmp path Q (.store tmp bytes)
  | remove : SaveEffect tmp path Q (.remove path)
  | rename : SaveEffect tmp path Q (.rename tmp path)

section Effects

variable {Q : Option ByteString → Prop} {tmp path p : String} {files : Files} (hnone : Q none) (hempty : Q (some []))

include hnone hempty

lemma SaveEffect.keeps {e : FileEffect} (he : SaveEffect tmp path Q e) (htmp : Q (files.content tmp))
    (hp : Q (files.content p)) : Q ((files.apply e).content p) := by
  cases he with
  | truncate => exact files.keeps_put hempty hp
  | store bytes h => exact files.keeps_put h hp
  | remove => exact files.keeps_put hnone hp
  | rename => exact Files.keeps_put _ htmp (files.keeps_put hnone hp)

lemma Files.after_keeps {effects : List FileEffect} (h : ∀ e ∈ effects, SaveEffect tmp path Q e)
    (htmp : Q (files.content tmp)) (hp : Q (files.content p)) : Q ((files.after effects).content p) := by
  induction effects generalizing files with
  | nil => exact hp
  | cons e effects ih =>
    obtain ⟨he, hrest⟩ := List.forall_mem_cons.mp h
    exact ih hrest (he.keeps hnone hempty htmp htmp) (he.keeps hnone hempty htmp hp)

lemma Files.after_opened {rest : List FileEffect} (h : ∀ e ∈ rest, SaveEffect tmp path Q e) (hp : Q (files.content p)) :
    Q ((files.after (.truncate tmp :: rest)).content p) := by
  have hopened : Q ((files.apply (.truncate tmp)).content tmp) := by
    rw [Files.apply, Files.content_put_self]
    exact hempty
  have hname : Q ((files.apply (.truncate tmp)).content p) := files.keeps_put hempty hp
  change Q (((files.apply (.truncate tmp)).after rest).content p)
  exact Files.after_keeps hnone hempty h hopened hname

end Effects

lemma SaveEffect.frame {tmp path name : String} {Q : Option ByteString → Prop} {e : FileEffect}
    (he : SaveEffect tmp path Q e) (htmp : cName name ≠ cName tmp) (hpath : cName name ≠ cName path) (files : Files) :
    (files.apply e).content name = files.content name := by
  cases he with
  | truncate => exact files.content_put_of_ne _ htmp
  | store bytes h => exact files.content_put_of_ne _ htmp
  | remove => exact files.content_put_of_ne _ hpath
  | rename => rw [Files.apply, Files.content_put_of_ne _ _ hpath, Files.content_put_of_ne _ _ htmp]

section Save

variable {snap : StoreSnapshot} {o : CallOutcomes} {path : String}

lemma saveFile_calls : SaveCalls snap path o (saveFile snap path o) := by
  have hremoval : (if o.removed then [FileEffect.remove path] else []) = [] ∨
      (if o.removed then [FileEffect.remove path] else []) = [.remove path] := by
    cases o.removed <;> simp
  rw [saveFile]
  cases himage : fileImage snap with
  | error e => exact .threw e himage
  | ok image =>
    dsimp only
    split
    · exact .notOpened _
    · split
      · rw [← List.append_nil (writeEffects _ image o)]
        exact .notReplaced _ image himage [] (.inl rfl)
      · split
        · rw [← List.append_nil (writeEffects _ image o)]
          exact .replaced image himage [] (.inl rfl)
        · split
          · exact .replaced image himage _ hremoval
          · exact .notReplaced _ image himage _ hremoval

lemma saveFile_effects {Q : Option ByteString → Prop}
    (h : ∀ image, fileImage snap = .ok image → ∀ k, Q (some (image.take k))) :
    (saveFile snap path o).2 = [] ∨ ∃ rest, (saveFile snap path o).2 = .truncate (path ++ ".tmp") :: rest ∧
      ∀ e ∈ rest, SaveEffect (path ++ ".tmp") path Q e := by
  have hstores : ∀ image, fileImage snap = .ok image →
      ∀ e ∈ (o.partway ++ [o.stored]).map fun n => FileEffect.store (path ++ ".tmp") (image.take n),
        SaveEffect (path ++ ".tmp") path Q e := by
    intro image himage e he
    obtain ⟨n, -, rfl⟩ := List.mem_map.mp he
    exact .store _ (h image himage n)
  have hremoval : ∀ removal, removal = [] ∨ removal = [FileEffect.remove path] →
      ∀ e ∈ removal, SaveEffect (path ++ ".tmp") path Q e := by
    rintro removal (rfl | rfl)
    · exact List.forall_mem_nil _
    · exact List.forall_mem_singleton.mpr .remove
  have hcalls := @saveFile_calls snap o path
  generalize saveFile snap path o = calls at hcalls ⊢
  cases hcalls with
  | threw e => exact .inl rfl
  | notOpened e => exact .inl rfl
  | notReplaced e image himage removal hr =>
    refine .inr ⟨_, rfl, ?_⟩
    exact List.forall_mem_append.mpr ⟨hstores image himage, hremoval removal hr⟩
  | replaced image himage removal hr =>
    refine .inr ⟨_, rfl, ?_⟩
    exact List.forall_mem_append.mpr
      ⟨List.forall_mem_append.mpr ⟨hstores image himage, hremoval removal hr⟩, List.forall_mem_singleton.mpr .rename⟩

lemma saveFile_keeps {Q : Option ByteString → Prop} (hnone : Q none) (hempty : Q (some []))
    (h : ∀ image, fileImage snap = .ok image → ∀ k, Q (some (image.take k))) {files : Files} {name : String}
    (hname : Q (files.content name)) (n : ℕ) :
    Q ((files.after ((saveFile snap path o).2.take n)).content name) := by
  rcases @saveFile_effects snap o path Q h with he | ⟨rest, he, hrest⟩
  · rw [he, List.take_nil]
    exact hname
  · cases n with
    | zero => exact hname
    | succ n =>
      rw [he, List.take_succ_cons]
      exact Files.after_opened hnone hempty (fun e hmem => hrest e (List.mem_of_mem_take hmem)) hname

lemma saveFile_frame {name : String} (htmp : cName name ≠ cName (path ++ ".tmp")) (hpath : cName name ≠ cName path)
    (files : Files) : (files.after (saveFile snap path o).2).content name = files.content name := by
  have hrest : ∀ (rest : List FileEffect) (files : Files),
      (∀ e ∈ rest, SaveEffect (path ++ ".tmp") path (fun _ => True) e) →
        (files.after rest).content name = files.content name := by
    intro rest
    induction rest with
    | nil => exact fun files _ => rfl
    | cons e rest ih =>
      intro files h
      obtain ⟨he, hrest⟩ := List.forall_mem_cons.mp h
      exact (ih (files.apply e) hrest).trans (he.frame htmp hpath files)
  rcases @saveFile_effects snap o path (fun _ => True) fun _ _ _ => trivial with he | ⟨rest, he, heffects⟩
  · rw [he]
    rfl
  · rw [he]
    exact (hrest rest _ heffects).trans (files.content_put_of_ne _ htmp)

lemma saveFile_written (h : (saveFile snap path o).1 = .ok none) : o.written = true := by
  rw [saveFile] at h
  generalize fileImage snap = image at h
  cases image with
  | error e => cases h
  | ok image =>
    cases hwritten : o.written with
    | true => rfl
    | false => cases hopened : o.opened <;> simp [hopened, hwritten] at h

lemma saveFile_done (h : (saveFile snap path o).1 = .ok none) (files : Files) :
    ∃ image, fileImage snap = .ok image ∧
      ((files.after (saveFile snap path o).2).content path = some (image.take o.stored) ∨
        '\x00' ∈ path.toList ∧ (files.after (saveFile snap path o).2).content path = none) := by
  have hcalls := @saveFile_calls snap o path
  generalize saveFile snap path o = calls at hcalls h ⊢
  cases hcalls with
  | threw e => cases h
  | notOpened e => cases h
  | notReplaced e image himage removal hr => cases h
  | replaced image himage removal hr =>
    refine ⟨image, himage, ?_⟩
    rw [Files.after, Runs.run_append, Runs.run_append, Files.after_writes, Runs.run_cons, Runs.run_nil, Files.apply,
      Files.content_put_self]
    rcases hr with rfl | rfl
    · exact .inl (Files.content_put_self ..)
    · rw [Runs.run_cons, Runs.run_nil, Files.apply, Files.content_put]
      split
      · next hsame => exact .inr ⟨by_contra fun hpath => cName_tmp_ne hpath hsame, rfl⟩
      · exact .inl (Files.content_put_self ..)

end Save

end StateProvenance

import TaroTria.Readings.PalmImages
import TaroTria.Transactions.Alone
import TaroTria.Transactions.World

/-!
# The progress of the cleanup

A run of the cleanup sees a batch of the expired images, in an order of the database.
An image whose object cannot be deleted stays expired and may take a place in every
later batch. So the others all have their turn if the batch holds more images than
there are such ones.
-/

namespace TaroTria

open Transactions

namespace ImageCleanup

/-- An order in which the database may return the rows of a query. -/
structure Arrangement where
  arrange : List (Id × PalmImage) → List (Id × PalmImage)
  perm : ∀ rows, (arrange rows).Perm rows

/-- `deleteExpiredImages`, with the rows in the given order. -/
def deleteExpiredImagesIn (order : Arrangement) : Request Unit := do
  let now ← Proc.call .now
  let expiredImages ← Proc.transaction <| Db.palmImage.findMany fun _ image => expired now image
  deleteImages ((order.arrange expiredImages).take CLEANUP_BATCH_SIZE)

theorem deleteExpiredImages_eq :
    deleteExpiredImages = deleteExpiredImagesIn ⟨id, fun _ => .refl _⟩ := rfl

/-- The keys of the objects deleted so far, and how often the clock was read. -/
structure Bucket where
  deleted : List String
  readings : Nat

/-- The storage fails to delete the objects of `fails`, and every other call succeeds. -/
def storage (clock : Nat → Time) (fails : String → Bool) : World Bucket Err Answer
  | .now, w => (.ok (clock w.readings), { w with readings := w.readings + 1 })
  | .deleteObject key, w =>
      if fails key then (.error .fault, w)
      else (.ok (), { w with deleted := key :: w.deleted })
  | _, w => (.error .fault, w)

/-- Several runs, one after another, each with an order of its own. -/
def cleanups (clock : Nat → Time) (fails : String → Bool) :
    List Arrangement → Bucket → Db → Bucket × Db
  | [], w, D => (w, D)
  | order :: orders, w, D =>
      let out := (deleteExpiredImagesIn order).play (storage clock fails) w D
      cleanups clock fails orders out.1 out.2.1

/-- No other image expires while the clock goes on. -/
def Steady (clock : Nat → Time) (now : Time) (D : Db) : Prop :=
  ∀ i id image, D.palmImages.lookup id = some image → expired (clock i) image = expired now image

/-- The batch of a run. -/
def batch (order : Arrangement) (now : Time) (D : Db) : List (Id × PalmImage) :=
  (order.arrange (D.palmImages.findMany fun _ image => expired now image)).take
    CLEANUP_BATCH_SIZE

/-- The images of a batch are marked, but for those that fail, and nothing else changes. -/
structure Cleaned (fails : String → Bool) (rows : List (Id × PalmImage)) (D D' : Db) : Prop where
  marked : ∀ id image, (id, image) ∈ rows → fails image.storageKey = false →
    ∃ t, D'.palmImages.lookup id = some { image with deletedAt := some t }
  kept : ∀ id, (∀ image, (id, image) ∈ rows → fails image.storageKey = true) →
    D'.palmImages.lookup id = D.palmImages.lookup id
  rest : D' = { D with palmImages := D'.palmImages }

/-- Every row of `D` that has changed is one whose object was deleted. -/
def DeletedFirst (D : Db) (w : Bucket) (D' : Db) : Prop :=
  ∀ id image, D.palmImages.lookup id = some image → D'.palmImages.lookup id ≠ some image →
    image.storageKey ∈ w.deleted

/-- Expired images that can be deleted, and those that cannot. -/
def pending (now : Time) (fails : String → Bool) (D : Db) : Nat :=
  D.palmImages.count fun _ image => expired now image && !fails image.storageKey

def stuck (now : Time) (fails : String → Bool) (D : Db) : Nat :=
  D.palmImages.count fun _ image => expired now image && fails image.storageKey

/-- What the cleanup owes to the expired images: every run marks its batch, each image
after its object is deleted, and as many runs as there are images mark all of them. -/
structure CleansUp (now : Time) (fails : String → Bool) (D : Db) : Prop where
  each : ∀ clock orders order w, Steady clock now D →
    let (w₀, D₀) := cleanups clock fails orders w D
    (deleteExpiredImagesIn order).Always (storage clock fails) (DeletedFirst D₀) w₀ D₀ ∧
      Cleaned fails (batch order now D₀) D₀
        ((deleteExpiredImagesIn order).play (storage clock fails) w₀ D₀).2.1
  all : ∀ clock orders w, Steady clock now D →
    orders.length = (D.palmImages.count fun _ image => expired now image) →
      ∀ id image, D.palmImages.lookup id = some image → expired now image = true →
        fails image.storageKey = false →
          ∃ t, (cleanups clock fails orders w D).2.palmImages.lookup id =
            some { image with deletedAt := some t }

section Image

variable {clock : Nat → Time} {fails : String → Bool} {w : Bucket} {D : Db} {id : Id}
  {image : PalmImage}

theorem storage_delete {key : String} (h : fails key = false) :
    storage clock fails (.deleteObject key) w =
      (.ok (), { w with deleted := key :: w.deleted }) := by
  simp [storage, h]

theorem play_deleteImage_failing (hfails : fails image.storageKey = true) :
    (deleteImage id image).play (storage clock fails) w D = (w, D, .ok ()) := by
  simp [deleteImage, storage, hfails, Proc.call]

theorem play_deleteImage (hD : D.palmImages.lookup id = some image)
    (hfails : fails image.storageKey = false) :
    (deleteImage id image).play (storage clock fails) w D =
      ({ deleted := image.storageKey :: w.deleted, readings := w.readings + 1 },
        view [.palmImage id (some { image with deletedAt := some (clock w.readings) })] D,
        .ok ()) := by
  have hrun := Db.palmImage.run_update (E := Err) (L := [])
    (fun image : PalmImage => { image with deletedAt := some (clock w.readings) }) hD
  unfold deleteImage
  rw [Proc.play_handle, Proc.play_call (storage_delete hfails),
    Proc.play_call (a := clock w.readings) rfl, Proc.play_transaction_ok hrun]
  rfl

/-- A write to the row of an image whose object was deleted. -/
theorem DeletedFirst.write {D₀ : Db} (h : DeletedFirst D₀ w D)
    (h₀ : D₀.palmImages.lookup id = some image) (hdeleted : image.storageKey ∈ w.deleted)
    (row : Option PalmImage) : DeletedFirst D₀ w (view [.palmImage id row] D) := by
  intro id' image' h₀' hne
  by_cases hid : id' = id
  · subst hid
    rw [h₀, Option.some.injEq] at h₀'
    exact h₀' ▸ hdeleted
  · refine h id' image' h₀' fun hlookup => hne ?_
    have hother := Table.lookup_write_of_ne D.palmImages row hid
    simpa using hother.trans hlookup

variable (clock fails) in
/-- An image is marked after its object is deleted. -/
theorem always_deleteImage {D₀ : Db} (h : DeletedFirst D₀ w D)
    (h₀ : D₀.palmImages.lookup id = some image) :
    (deleteImage id image).Always (storage clock fails) (DeletedFirst D₀) w D := by
  have hmore : ∀ {w'}, w.deleted ⊆ w'.deleted → DeletedFirst D₀ w' D :=
    fun hsub id image hlookup hne => hsub (h id image hlookup hne)
  by_cases hfails : fails image.storageKey = true
  · simp only [deleteImage, storage, hfails, Proc.call, Proc.ask_bind, Proc.handle_ask,
      Proc.Always, if_true, Proc.ofExcept_error, Proc.throw_bind, Proc.handle_throw]
    exact ⟨h, h⟩
  have hdelete : storage clock fails (.deleteObject image.storageKey) w = _ :=
    storage_delete (by simpa using hfails)
  have hdeleted : DeletedFirst D₀ { w with deleted := image.storageKey :: w.deleted } D :=
    hmore (List.subset_cons_self _ _)
  have hbody : (do
      Proc.call (Query.deleteObject image.storageKey)
      let deletedAt ← Proc.call .now
      let _ ← Proc.transaction <| Db.palmImage.update id
        fun image => { image with deletedAt := some deletedAt } : Request Unit).Always
      (storage clock fails) (DeletedFirst D₀) w D := by
    refine Proc.Always.bind (Proc.always_call h (hdelete ▸ hdeleted)) fun w₁ D₁ _ hplay => ?_
    rw [Proc.play_call_self, hdelete] at hplay
    cases hplay
    refine Proc.Always.bind (Proc.always_call hdeleted hdeleted) fun w₂ D₂ t hplay => ?_
    rw [Proc.play_call_self] at hplay
    cases hplay
    have hmarked : ∀ row, DeletedFirst D₀ ⟨image.storageKey :: w.deleted, w.readings + 1⟩
        (view [.palmImage id row] D) :=
      DeletedFirst.write hdeleted h₀ List.mem_cons_self
    have htx : (Proc.transaction (Db.palmImage.update id
        fun image => { image with deletedAt := some (clock w.readings) }) :
        Request PalmImage).Always
        (storage clock fails) (DeletedFirst D₀)
          ⟨image.storageKey :: w.deleted, w.readings + 1⟩ D := by
      refine Proc.always_transaction hdeleted fun a L hrun => ?_
      cases hD : D.palmImages.lookup id with
      | none =>
          cases (Db.palmImage.run_update_none (E := Err) (L := []) hD).symm.trans hrun
      | some v =>
          cases (Db.palmImage.run_update (E := Err) (L := []) _ hD).symm.trans hrun
          exact hmarked _
    exact Proc.Always.bind htx fun _ _ _ hplay => htx.finish hplay
  exact Proc.Always.handle hbody fun w' D' e hplay => hbody.finish hplay

end Image

section Batch

variable {clock : Nat → Time} {fails : String → Bool} {now : Time}

theorem expired_marked (t : Time) (image : PalmImage) :
    expired now { image with deletedAt := some t } = false := by
  simp [expired]

section Rows

variable {rows : List (Id × PalmImage)} {D D' : Db} {id : Id} {image : PalmImage}

theorem Cleaned.cons_failing (h : Cleaned fails rows D D')
    (hfails : fails image.storageKey = true) : Cleaned fails ((id, image) :: rows) D D' := by
  refine ⟨fun id' image' hmem hfails' => ?_, fun id' hall => ?_, h.rest⟩
  · rcases List.mem_cons.mp hmem with heq | hmem
    · cases heq
      rw [hfails] at hfails'
      cases hfails'
    · exact h.marked id' image' hmem hfails'
  · exact h.kept id' fun image' hmem => hall image' (List.mem_cons_of_mem _ hmem)

theorem Cleaned.cons_marked {t : Time} (hlater : ∀ image', (id, image') ∉ rows)
    (hfails : fails image.storageKey = false)
    (h : Cleaned fails rows (view [.palmImage id (some { image with deletedAt := some t })] D) D') :
    Cleaned fails ((id, image) :: rows) D D' := by
  refine ⟨fun id' image' hmem hfails' => ?_, fun id' hall => ?_, h.rest⟩
  · rcases List.mem_cons.mp hmem with heq | hmem
    · cases heq
      refine ⟨t, ?_⟩
      rw [h.kept id fun image' hmem => absurd hmem (hlater image')]
      simp
    · exact h.marked id' image' hmem hfails'
  · have hne : id' ≠ id := by
      rintro rfl
      have hhead := hall image List.mem_cons_self
      rw [hfails] at hhead
      cases hhead
    rw [h.kept id' fun image' hmem => hall image' (List.mem_cons_of_mem _ hmem)]
    simpa using Table.lookup_write_of_ne D.palmImages _ hne

end Rows

section Counts

variable {D : Db} {id : Id} {image : PalmImage} (t : Time)
  (hlookup : D.palmImages.lookup id = some image) (hfails : fails image.storageKey = false)
include hlookup hfails

theorem pending_marked (hexpired : expired now image = true) :
    pending now fails (view [.palmImage id (some { image with deletedAt := some t })] D) + 1 =
      pending now fails D := by
  have hcount := Table.count_write_of_lookup { image with deletedAt := some t }
    (fun _ image => expired now image && !fails image.storageKey) hlookup
  simpa [pending, hexpired, hfails, expired_marked] using hcount

theorem stuck_marked :
    stuck now fails (view [.palmImage id (some { image with deletedAt := some t })] D) =
      stuck now fails D := by
  have hcount := Table.count_write_same { image with deletedAt := some t }
    (fun _ image => expired now image && fails image.storageKey) hlookup (by simp [hfails])
  simpa [stuck] using hcount

end Counts

/-- The images of a list, one after another. -/
theorem play_deleteImages {rows : List (Id × PalmImage)} {w : Bucket} {D : Db}
    (hnodup : (rows.map Prod.fst).Nodup)
    (hrows : ∀ id image, (id, image) ∈ rows → D.palmImages.lookup id = some image ∧
      expired now image = true) :
    ∃ w' D', (deleteImages rows).play (storage clock fails) w D = (w', D', .ok ()) ∧
      Cleaned fails rows D D' ∧ stuck now fails D' = stuck now fails D ∧
      pending now fails D' + (rows.countP fun e => !fails e.2.storageKey) =
        pending now fails D := by
  induction rows generalizing w D with
  | nil => exact ⟨w, D, rfl, ⟨by simp, by simp, rfl⟩, rfl, rfl⟩
  | cons e rows ih =>
      obtain ⟨id, image⟩ := e
      obtain ⟨hlookup, hexpired⟩ := hrows id image List.mem_cons_self
      rw [List.map_cons, List.nodup_cons] at hnodup
      have hlater : ∀ image', (id, image') ∉ rows := fun image' hmem =>
        hnodup.1 (List.mem_map.mpr ⟨(id, image'), hmem, rfl⟩)
      rw [deleteImages]
      by_cases hfails : fails image.storageKey = true
      · obtain ⟨w', D', hplay, hcleaned, hstuck, hpending⟩ := @ih w D hnodup.2
          fun id' image' hmem => hrows id' image' (List.mem_cons_of_mem _ hmem)
        refine ⟨w', D', ?_, hcleaned.cons_failing hfails, hstuck, ?_⟩
        · rw [Proc.play_bind_ok (play_deleteImage_failing hfails), hplay]
        · rw [List.countP_cons_of_neg (by simp [hfails]), hpending]
      · rw [Bool.not_eq_true] at hfails
        have hrest : ∀ id' image', (id', image') ∈ rows →
            (view [.palmImage id (some { image with deletedAt := some (clock w.readings) })]
              D).palmImages.lookup id' = some image' ∧ expired now image' = true := by
          intro id' image' hmem
          obtain ⟨hlookup', hexpired'⟩ := hrows id' image' (List.mem_cons_of_mem _ hmem)
          have hne : id' ≠ id := fun heq => hlater image' (heq ▸ hmem)
          refine ⟨?_, hexpired'⟩
          simpa [Table.lookup_write_of_ne _ _ hne] using hlookup'
        obtain ⟨w', D', hplay, hcleaned, hstuck, hpending⟩ :=
          @ih ⟨image.storageKey :: w.deleted, w.readings + 1⟩ _ hnodup.2 hrest
        refine ⟨w', D', ?_, hcleaned.cons_marked hlater hfails, ?_, ?_⟩
        · rw [Proc.play_bind_ok (play_deleteImage hlookup hfails), hplay]
        · rw [hstuck, stuck_marked _ hlookup hfails]
        · rw [List.countP_cons_of_pos (by simp [hfails]), ← pending_marked _ hlookup hfails hexpired,
            ← hpending]
          rfl

theorem always_deleteImages {D₀ : Db} {rows : List (Id × PalmImage)} {w : Bucket} {D : Db}
    (h : DeletedFirst D₀ w D)
    (h₀ : ∀ id image, (id, image) ∈ rows → D₀.palmImages.lookup id = some image) :
    (deleteImages rows).Always (storage clock fails) (DeletedFirst D₀) w D := by
  induction rows generalizing w D with
  | nil => exact h
  | cons e rows ih =>
      obtain ⟨id, image⟩ := e
      have hhead := always_deleteImage clock fails h (h₀ id image List.mem_cons_self)
      exact Proc.Always.bind hhead fun w' D' _ hplay => ih (hhead.finish hplay)
        fun id' image' hmem => h₀ id' image' (List.mem_cons_of_mem _ hmem)

/-- Images that cannot be deleted are left alone. -/
theorem play_deleteImages_failing {rows : List (Id × PalmImage)} {w : Bucket} {D : Db}
    (hfails : ∀ e ∈ rows, fails e.2.storageKey = true) :
    (deleteImages rows).play (storage clock fails) w D = (w, D, .ok ()) := by
  induction rows with
  | nil => rfl
  | cons e rows ih =>
      rw [deleteImages, Proc.play_bind_ok (play_deleteImage_failing (hfails e List.mem_cons_self)),
        ih fun e' he' => hfails e' (List.mem_cons_of_mem e he')]

end Batch

/-! ## A run -/

section Run

variable {clock : Nat → Time} {fails : String → Bool} {now : Time} {order : Arrangement}
  {w : Bucket} {D : Db}

theorem mem_batch {id : Id} {image : PalmImage} (h : (id, image) ∈ batch order now D) :
    D.palmImages.lookup id = some image ∧ expired now image = true :=
  (Table.mem_findMany _ _ _ _).mp ((order.perm _).mem_iff.mp (List.mem_of_mem_take h))

theorem nodup_batch : ((batch order now D).map Prod.fst).Nodup := by
  have hrows := Table.nodup_keys_findMany D.palmImages fun _ image => expired now image
  have hall := ((order.perm (D.palmImages.findMany fun _ image => expired now image)).map
    Prod.fst).nodup_iff.mpr hrows
  exact hall.sublist ((List.take_sublist _ _).map _)

/-- At each time of a steady clock, the query finds the images that have expired by now. -/
theorem Steady.findMany_eq (h : Steady clock now D) (i : Nat) :
    (D.palmImages.findMany fun _ image => expired (clock i) image) =
      D.palmImages.findMany fun _ image => expired now image :=
  List.filter_congr fun e he => h i e.1 e.2 ((Table.mem_toRows _ _ _).mp he)

variable (fails order w) in
theorem play_deleteExpiredImagesIn (h : Steady clock now D) :
    (deleteExpiredImagesIn order).play (storage clock fails) w D =
      (deleteImages (batch order now D)).play (storage clock fails)
        { w with readings := w.readings + 1 } D := by
  rw [deleteExpiredImagesIn, Proc.play_call (a := clock w.readings) rfl, batch,
    ← h.findMany_eq w.readings]
  exact Proc.play_bind_ok (Proc.play_select fun D : Db => D.palmImages.findMany fun _ image =>
    expired (clock w.readings) image)

variable (fails order w) in
/-- What one run does. -/
theorem play_run (h : Steady clock now D) :
    ∃ w' D', (deleteExpiredImagesIn order).play (storage clock fails) w D = (w', D', .ok ()) ∧
      Cleaned fails (batch order now D) D D' ∧ stuck now fails D' = stuck now fails D ∧
      pending now fails D' + ((batch order now D).countP fun e => !fails e.2.storageKey) =
        pending now fails D := by
  rw [play_deleteExpiredImagesIn fails order w h]
  exact play_deleteImages nodup_batch fun id image => mem_batch

theorem always_run (h : Steady clock now D) :
    (deleteExpiredImagesIn order).Always (storage clock fails) (DeletedFirst D) w D := by
  have hself : ∀ {w}, DeletedFirst D w D := fun _ _ hlookup hne => absurd hlookup hne
  refine Proc.Always.bind (Proc.always_call hself hself) fun w₁ D₁ t hplay => ?_
  rw [Proc.play_call_self] at hplay
  cases hplay
  refine Proc.Always.bind (Proc.always_transaction hself fun a L hrun => ?_)
    fun w₂ D₂ images hplay => ?_
  · cases hrun
    exact hself
  · cases (Proc.play_select _).symm.trans hplay
    refine always_deleteImages hself fun id image hmem => ?_
    rw [Db.palmImage_rows, h.findMany_eq] at hmem
    exact (mem_batch hmem).1

/-- The row of an image after a run: it is as before, or it has been marked. -/
theorem Cleaned.row {rows : List (Id × PalmImage)} {D' : Db} (h : Cleaned fails rows D D')
    (hrows : ∀ id image, (id, image) ∈ rows → D.palmImages.lookup id = some image) (id : Id) :
    D'.palmImages.lookup id = D.palmImages.lookup id ∨
      ∃ image t, D.palmImages.lookup id = some image ∧
        D'.palmImages.lookup id = some { image with deletedAt := some t } := by
  by_cases hid : ∃ image, (id, image) ∈ rows ∧ fails image.storageKey = false
  · obtain ⟨image, hmem, hfails⟩ := hid
    obtain ⟨t, hmarked⟩ := h.marked id image hmem hfails
    exact .inr ⟨image, t, hrows id image hmem, hmarked⟩
  · refine .inl (h.kept id fun image hmem => ?_)
    by_contra hfails
    exact hid ⟨image, hmem, by simpa using hfails⟩

theorem Steady.run {D' : Db} (h : Steady clock now D)
    (hcleaned : Cleaned fails (batch order now D) D D') : Steady clock now D' := by
  intro i id image hlookup
  rcases hcleaned.row (fun id image hmem => (mem_batch hmem).1) id with
    hsame | ⟨image', t, -, hmarked⟩
  · exact h i id image (hsame ▸ hlookup)
  · cases Option.some.inj (hmarked.symm.trans hlookup)
    rw [expired_marked, expired_marked]

/-! ### The batch makes progress -/

theorem countP_take_pos {α : Type} {l : List α} {p : α → Bool} {k : Nat}
    (hk : (l.countP fun a => !p a) < k) (h : 0 < l.countP p) : 0 < (l.take k).countP p := by
  by_contra hzero
  have hothers : (l.take k).length = (l.take k).countP fun a => !p a := by
    have hsplit := List.length_eq_countP_add_countP p (l := l.take k)
    simp only [Bool.not_eq_true, Bool.decide_eq_false] at hsplit
    omega
  have hle : ((l.take k).countP fun a => !p a) ≤ l.countP fun a => !p a :=
    (List.take_sublist k l).countP_le
  rw [List.length_take] at hothers
  rw [List.take_of_length_le (by omega)] at hzero
  exact hzero h

variable (now D) in
theorem countP_expired (p : PalmImage → Bool) :
    ((D.palmImages.findMany fun _ image => expired now image).countP fun e => p e.2) =
      D.palmImages.count fun _ image => expired now image && p image := by
  rw [Table.count, Table.findMany, Table.findMany, List.countP_eq_length_filter,
    List.filter_filter]
  simp only [Bool.and_comm]

variable (order) in
theorem batch_progress (hstuck : stuck now fails D < CLEANUP_BATCH_SIZE)
    (h : 0 < pending now fails D) :
    0 < (batch order now D).countP fun e => !fails e.2.storageKey := by
  have hperm := order.perm (D.palmImages.findMany fun _ image => expired now image)
  refine countP_take_pos ?_ ?_
  · rw [hperm.countP_eq]
    simpa [stuck, ← countP_expired] using hstuck
  · rw [hperm.countP_eq]
    exact (countP_expired now D fun image => !fails image.storageKey).symm ▸ h

variable (fails now D) in
theorem pending_le_expired :
    pending now fails D ≤ D.palmImages.count fun _ image => expired now image := by
  rw [pending, Table.count_eq_countP, Table.count_eq_countP]
  refine List.countP_mono_left fun e _ hboth => ?_
  exact (Bool.and_eq_true_iff.mp hboth).1

/-! ### Runs, one after another -/

/-- A row after several runs: it is as before, or it has been marked. -/
def Kept (D D' : Db) : Prop :=
  ∀ id image, D.palmImages.lookup id = some image →
    D'.palmImages.lookup id = some image ∨
      ∃ t, D'.palmImages.lookup id = some { image with deletedAt := some t }

theorem Kept.run {D₀ D' : Db} (h : Kept D₀ D)
    (hcleaned : Cleaned fails (batch order now D) D D') : Kept D₀ D' := by
  intro id image hlookup
  have hrow := hcleaned.row (fun id image hmem => (mem_batch hmem).1) id
  rcases h id image hlookup with hsame | ⟨t, hmarked⟩
  · rcases hrow with heq | ⟨image', t, hlookup', hmarked⟩
    · exact .inl (heq.trans hsame)
    · cases Option.some.inj (hsame.symm.trans hlookup')
      exact .inr ⟨t, hmarked⟩
  · rcases hrow with heq | ⟨image', t', hlookup', hmarked'⟩
    · exact .inr ⟨t, heq.trans hmarked⟩
    · cases Option.some.inj (hmarked.symm.trans hlookup')
      exact .inr ⟨t', hmarked'⟩

theorem cleanups_cons (orders : List Arrangement) {w' : Bucket} {D' : Db} {r : Except Err Unit}
    (h : (deleteExpiredImagesIn order).play (storage clock fails) w D = (w', D', r)) :
    cleanups clock fails (order :: orders) w D = cleanups clock fails orders w' D' := by
  rw [cleanups, h]

variable (fails w) in
theorem Kept.cleanups {D₀ : Db} (orders : List Arrangement) (hsteady : Steady clock now D)
    (h : Kept D₀ D) :
    Steady clock now (cleanups clock fails orders w D).2 ∧
      Kept D₀ (cleanups clock fails orders w D).2 := by
  induction orders generalizing w D with
  | nil => exact ⟨hsteady, h⟩
  | cons order orders ih =>
      obtain ⟨w', D', hplay, hcleaned, -⟩ := play_run fails order w hsteady
      rw [cleanups_cons orders hplay]
      exact ih w' (hsteady.run hcleaned) (h.run hcleaned)

variable (fails w) in
/-- If the batch is larger than the number of images that fail, then each run marks one. -/
theorem pending_cleanups (orders : List Arrangement) (hsteady : Steady clock now D)
    (hstuck : stuck now fails D < CLEANUP_BATCH_SIZE) :
    pending now fails (cleanups clock fails orders w D).2 ≤
      pending now fails D - orders.length := by
  induction orders generalizing w D with
  | nil => exact le_rfl
  | cons order orders ih =>
      obtain ⟨w', D', hplay, hcleaned, hstuck', hpending⟩ := play_run fails order w hsteady
      have hrest := @ih w' D' (hsteady.run hcleaned) (hstuck' ▸ hstuck)
      have hprogress := batch_progress order hstuck
      rw [cleanups_cons orders hplay, List.length_cons]
      omega

end Run

/-! ## The condition -/

section Condition

variable {now : Time} {fails : String → Bool} {D : Db}

theorem pending_eq_zero (h : pending now fails D = 0) {id : Id} {image : PalmImage}
    (hlookup : D.palmImages.lookup id = some image) (hexpired : expired now image = true) :
    fails image.storageKey = true := by
  by_contra hfails
  have hnone := List.eq_nil_of_length_eq_zero h
  rw [Table.findMany_eq_nil] at hnone
  simpa [hexpired, hfails] using hnone id image hlookup

variable (fails) in
/-- The rows that fail come first. -/
def failingFirst : Arrangement where
  arrange all :=
    all.filter (fun e => fails e.2.storageKey) ++ all.filter fun e => !fails e.2.storageKey
  perm _ := List.filter_append_perm _ _

theorem failing_of_mem_batch (hstuck : CLEANUP_BATCH_SIZE ≤ stuck now fails D) :
    ∀ e ∈ batch (failingFirst fails) now D, fails e.2.storageKey = true := by
  intro e he
  have hlength : CLEANUP_BATCH_SIZE ≤
      ((D.palmImages.findMany fun _ image => expired now image).filter
        fun e => fails e.2.storageKey).length := by
    rwa [← List.countP_eq_length_filter, countP_expired now D fun image => fails image.storageKey]
  rw [batch, failingFirst, List.take_append_of_le_length hlength] at he
  exact (List.mem_filter.mp (List.mem_of_mem_take he)).2

variable (now) in
theorem steady_const : Steady (fun _ => now) now D := fun _ _ _ _ => rfl

/-- The batches hold images that fail and no others, again and again. -/
theorem cleanups_failingFirst (hstuck : CLEANUP_BATCH_SIZE ≤ stuck now fails D) (n : Nat)
    (w : Bucket) :
    (cleanups (fun _ => now) fails (List.replicate n (failingFirst fails)) w D).2 = D := by
  induction n generalizing w with
  | zero => rfl
  | succ n ih =>
      have hplay := (play_deleteExpiredImagesIn fails (failingFirst fails) w
        (steady_const now)).trans (play_deleteImages_failing (failing_of_mem_batch hstuck))
      rw [List.replicate_succ, cleanups_cons _ hplay, ih]

/-- An image that can be deleted has no turn. -/
theorem not_cleansUp (hstuck : CLEANUP_BATCH_SIZE ≤ stuck now fails D)
    (h : 0 < pending now fails D) : ¬CleansUp now fails D := by
  intro hcleans
  have hsome : ¬(D.palmImages.findMany
      fun _ image => expired now image && !fails image.storageKey) = [] := fun hnone => by
    rw [pending, Table.count, hnone] at h
    exact absurd h (lt_irrefl 0)
  rw [Table.findMany_eq_nil] at hsome
  push Not at hsome
  obtain ⟨id, image, hlookup, hpending⟩ := hsome
  simp only [ne_eq, Bool.not_eq_false, Bool.and_eq_true, Bool.not_eq_true'] at hpending
  obtain ⟨t, hmarked⟩ := hcleans.all (fun _ => now)
    (List.replicate _ (failingFirst fails)) ⟨[], 0⟩ (steady_const now) List.length_replicate
    id image hlookup hpending.1 hpending.2
  rw [cleanups_failingFirst hstuck, hlookup, Option.some.injEq] at hmarked
  have hexpired := hpending.1
  rw [hmarked, expired_marked] at hexpired
  cases hexpired

/-- The cleanup has a turn for every image that can be deleted exactly if those that
cannot do not fill a batch, or there is no other image to delete. -/
theorem cleansUp_iff (now : Time) (fails : String → Bool) (D : Db) :
    CleansUp now fails D ↔
      stuck now fails D < CLEANUP_BATCH_SIZE ∨
        ∀ id image, D.palmImages.lookup id = some image → expired now image = true →
          fails image.storageKey = true := by
  constructor
  · intro hcleans
    by_contra hnot
    push Not at hnot
    obtain ⟨hstuck, id, image, hlookup, hexpired, hfails⟩ := hnot
    refine not_cleansUp hstuck (Nat.pos_of_ne_zero fun hzero => ?_) hcleans
    exact hfails (pending_eq_zero hzero hlookup hexpired)
  · intro hcondition
    refine ⟨fun clock orders order w hsteady => ?_, fun clock orders w hsteady hlength => ?_⟩
    · have hafter := (Kept.cleanups fails w orders hsteady
        fun _ _ hlookup => .inl hlookup).1
      refine ⟨always_run hafter, ?_⟩
      obtain ⟨w', D', hplay, hcleaned, -⟩ := play_run fails order
        (cleanups clock fails orders w D).1 hafter
      rw [hplay]
      exact hcleaned
    · intro id image hlookup hexpired hfails
      rcases hcondition with hstuck | hall
      · have hkept := (Kept.cleanups fails w orders hsteady
          fun _ _ hlookup => .inl hlookup).2
        have hdone := pending_cleanups fails w orders hsteady hstuck
        have hle := pending_le_expired fails now D
        refine (hkept id image hlookup).resolve_left fun hsame => ?_
        have hzero : pending now fails (cleanups clock fails orders w D).2 = 0 := by omega
        have hall := pending_eq_zero hzero hsame hexpired
        rw [hfails] at hall
        cases hall
      · rw [hall id image hlookup hexpired] at hfails
        cases hfails

end Condition

/-! ## A backlog -/

/-- The `n`-th image of a backlog, named by a numeral. -/
def numeral (n : Nat) : Id := String.ofList (List.replicate n '1')

def backlogImage (n : Nat) : PalmImage :=
  { readingId := "reading-1"
    storageKey := ReadingsService.buildPalmImageKey "ada" "reading-1" (numeral n) .jpeg
    status := .INVALID, mimeType := none, createdAt := 0, sizeBytes := none, widthPx := none
    heightPx := none, validationError := none, consentAt := none, expiresAt := some 0
    deletedAt := none }

/-- The images up to `n`, all of them expired. -/
def backlog : Nat → Db
  | 0 => view [.palmImage (numeral 0) (some (backlogImage 0))] Db.empty
  | n + 1 => view [.palmImage (numeral (n + 1)) (some (backlogImage (n + 1)))] (backlog n)

/-- The deletion of every object fails, except for one. -/
def failsButOne (key : String) : Bool := key ≠ (backlogImage 0).storageKey

theorem numeral_injective {m n : Nat} (h : numeral m = numeral n) : m = n := by
  have hlength := congrArg (fun id : Id => id.toList.length) h
  simpa [numeral] using hlength

theorem buildPalmImageKey_inj {userId readingId id id' : Id} {type : PalmImageMimeType}
    (h : ReadingsService.buildPalmImageKey userId readingId id type =
      ReadingsService.buildPalmImageKey userId readingId id' type) : id = id' := by
  unfold ReadingsService.buildPalmImageKey at h
  have hstem := (String.append_left_inj _).mp ((String.append_left_inj _).mp h)
  exact (String.append_right_inj _).mp hstem

theorem storageKey_backlogImage (n : Nat) : (backlogImage n).storageKey =
    ReadingsService.buildPalmImageKey "ada" "reading-1" (numeral n) .jpeg := rfl

theorem failsButOne_backlogImage {n : Nat} :
    failsButOne (backlogImage n).storageKey = decide (n ≠ 0) := by
  have hkey : (backlogImage n).storageKey = (backlogImage 0).storageKey ↔ n = 0 := by
    constructor
    · intro h
      rw [storageKey_backlogImage, storageKey_backlogImage] at h
      exact numeral_injective (buildPalmImageKey_inj h)
    · rintro rfl
      rfl
  rw [failsButOne, decide_eq_decide, not_iff_not, hkey]

theorem lookup_backlog {m n : Nat} (h : m < n) :
    (backlog m).palmImages.lookup (numeral n) = none := by
  have hne : ∀ {m}, m < n → numeral n ≠ numeral m := fun hlt heq =>
    absurd (numeral_injective heq) (by omega)
  induction m with
  | zero => exact Table.lookup_write_of_ne Db.empty.palmImages _ (hne h)
  | succ m ih =>
      have hrest := Table.lookup_write_of_ne (backlog m).palmImages
        (some (backlogImage (m + 1))) (hne h)
      rw [ih (by omega)] at hrest
      simpa [backlog] using hrest

theorem count_backlog (p : PalmImage → Bool) (n : Nat) :
    (backlog (n + 1)).palmImages.count (fun _ image => p image) =
      (backlog n).palmImages.count (fun _ image => p image) +
        if p (backlogImage (n + 1)) then 1 else 0 := by
  have hcount := Table.count_write_fresh (backlogImage (n + 1)) (fun _ image => p image)
    (lookup_backlog (Nat.lt_succ_self n))
  simpa [backlog] using hcount

theorem stuck_backlog (n : Nat) : stuck 0 failsButOne (backlog n) = n := by
  induction n with
  | zero => rfl
  | succ n ih =>
      rw [stuck, count_backlog fun image => expired 0 image && failsButOne image.storageKey]
      simp only [failsButOne_backlogImage]
      rw [← stuck, ih]
      rfl

theorem pending_backlog (n : Nat) : pending 0 failsButOne (backlog n) = 1 := by
  induction n with
  | zero => rfl
  | succ n ih =>
      rw [pending, count_backlog fun image => expired 0 image && !failsButOne image.storageKey]
      simp only [failsButOne_backlogImage]
      rw [← pending, ih]
      rfl

/-- A batch of images that fail keeps the only other image waiting. -/
theorem backlog_blocks_cleanup :
    ¬CleansUp 0 failsButOne (backlog CLEANUP_BATCH_SIZE) :=
  not_cleansUp (stuck_backlog _).ge (by simp [pending_backlog])

end ImageCleanup

end TaroTria

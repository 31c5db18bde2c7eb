import Mathlib.Data.List.Basic
import Mathlib.Data.List.Pairwise
import Mathlib.Data.List.Perm.Basic
import Mathlib.Order.MinMax

/-! # Stamped writes behind one guard

A register takes a write only if its stamp is later than every stamp it has taken. Of a sequence of
writes the register hears those that are later than all before them. A column that only some writes
touch shows the last heard write that touches it, so what it shows depends on the order.
-/

namespace Stamped

variable {μ σ β τ : Type} [LinearOrder τ] (stamp : μ → τ)

/-- The writes that are later than all before them, and than what has been seen. -/
def heard (seen : τ) : List μ → List μ
  | [] => []
  | first :: rest => if seen < stamp first then first :: heard (stamp first) rest else heard seen rest

/-- What the last write that touches a column has left there. -/
def lastWritten (writes : μ → Option β) (value : β) (messages : List μ) : β :=
  messages.foldl (fun value message => (writes message).getD value) value

/-- The first of the writes with the latest stamp. -/
def Latest (messages : List μ) (latest : μ) : Prop :=
  ∃ before after, messages = before ++ latest :: after ∧ (∀ message ∈ before, stamp message < stamp latest) ∧
    ∀ message ∈ after, stamp message ≤ stamp latest

section Time

variable {θ : Type} [LinearOrder θ] (time : μ → θ)

/-- The stamp of the write is later than what has been seen, and than those of all writes of an earlier time. -/
def Leads (seen : τ) (messages : List μ) (message : μ) : Prop :=
  message ∈ messages ∧ seen < stamp message ∧ ∀ other ∈ messages, time other < time message → stamp other < stamp message

/-- The newest leading write that touches the column is heard, and none that is heard after it touches the column, or
the column shows what it writes anyway; and likewise where no leading write touches the column. -/
structure Shown (writes : μ → Option β) (value : β) (seen : τ) (messages : List μ) : Prop where
  newest : ∀ newest written, Leads stamp time seen messages newest → writes newest = some written →
    (∀ message, Leads stamp time seen messages message → (writes message).isSome → stamp message ≤ stamp newest) →
    (newest ∈ heard stamp seen messages ∧
      ∀ message ∈ heard stamp seen messages, (writes message).isSome → stamp message ≤ stamp newest) ∨
        lastWritten writes value (heard stamp seen messages) = written
  untouched : (∀ message, Leads stamp time seen messages message → writes message = none) →
    (∀ message ∈ heard stamp seen messages, writes message = none) ∨
      lastWritten writes value (heard stamp seen messages) = value

end Time

variable {stamp}

theorem heard_sublist (seen : τ) (messages : List μ) : (heard stamp seen messages).Sublist messages := by
  induction messages generalizing seen with
  | nil => exact .slnil
  | cons first rest ih =>
    rw [heard]
    split
    · exact (ih _).cons_cons first
    · exact (ih _).cons first

theorem seen_lt_of_heard {seen : τ} {messages : List μ} {message : μ} (member : message ∈ heard stamp seen messages) :
    seen < stamp message := by
  induction messages generalizing seen with
  | nil => cases member
  | cons first rest ih =>
    rw [heard] at member
    split at member
    · next later =>
      obtain rfl | member := List.mem_cons.mp member
      · exact later
      · exact later.trans (ih member)
    · exact ih member

/-- A write is heard if it is later than all before it. -/
theorem mem_heard_iff {seen : τ} {messages : List μ} {message : μ} : message ∈ heard stamp seen messages ↔
    ∃ before after, messages = before ++ message :: after ∧ seen < stamp message ∧
      ∀ earlier ∈ before, stamp earlier < stamp message := by
  induction messages generalizing seen with
  | nil =>
    refine iff_of_false List.not_mem_nil ?_
    rintro ⟨before, after, none, -⟩
    exact List.append_ne_nil_of_right_ne_nil before (List.cons_ne_nil _ _) none.symm
  | cons first rest ih =>
    rw [heard]
    constructor
    · intro member
      by_cases newer : seen < stamp first
      · rw [if_pos newer] at member
        rcases List.mem_cons.mp member with rfl | member
        · exact ⟨[], rest, rfl, newer, fun _ absurd => (List.not_mem_nil absurd).elim⟩
        · obtain ⟨before, after, rfl, later, others⟩ := ih.mp member
          exact ⟨first :: before, after, rfl, newer.trans later, List.forall_mem_cons.mpr ⟨later, others⟩⟩
      · rw [if_neg newer] at member
        obtain ⟨before, after, rfl, later, others⟩ := ih.mp member
        have older : stamp first < stamp message := (not_lt.mp newer).trans_lt later
        exact ⟨first :: before, after, rfl, later, List.forall_mem_cons.mpr ⟨older, others⟩⟩
    · rintro ⟨before, after, split, later, others⟩
      cases before with
      | nil =>
        obtain ⟨rfl, rfl⟩ := List.cons.inj split
        rw [if_pos later]
        exact List.mem_cons_self
      | cons head before =>
        obtain ⟨rfl, rfl⟩ := List.cons.inj split
        obtain ⟨older, others⟩ := List.forall_mem_cons.mp others
        split
        · exact List.mem_cons_of_mem _ (ih.mpr ⟨before, after, rfl, older, others⟩)
        · exact ih.mpr ⟨before, after, rfl, later, others⟩

theorem heard_sorted (seen : τ) (messages : List μ) :
    (heard stamp seen messages).Pairwise fun a b => stamp a < stamp b := by
  induction messages generalizing seen with
  | nil => exact .nil
  | cons first rest ih =>
    rw [heard]
    split
    · exact .cons (fun _ member => seen_lt_of_heard member) (ih _)
    · exact ih _

theorem heard_eq_nil_iff {seen : τ} {messages : List μ} :
    heard stamp seen messages = [] ↔ ∀ message ∈ messages, stamp message ≤ seen := by
  induction messages with
  | nil => exact iff_of_true rfl fun _ member => absurd member List.not_mem_nil
  | cons first rest ih =>
    rw [heard, List.forall_mem_cons]
    split
    · next newer => exact iff_of_false (List.cons_ne_nil _ _) fun older => absurd newer (not_lt.mpr older.1)
    · next older => exact ih.trans (and_iff_right (not_lt.mp older)).symm

theorem latest_cons_iff {first latest : μ} {rest : List μ} : Latest stamp (first :: rest) latest ↔
    (stamp first < stamp latest ∧ Latest stamp rest latest) ∨
      (latest = first ∧ ∀ message ∈ rest, stamp message ≤ stamp first) := by
  constructor
  · rintro ⟨before, after, split, earlier, others⟩
    cases before with
    | nil =>
      obtain ⟨rfl, rfl⟩ := List.cons.inj split
      exact .inr ⟨rfl, others⟩
    | cons head before =>
      obtain ⟨rfl, rfl⟩ := List.cons.inj split
      obtain ⟨older, earlier⟩ := List.forall_mem_cons.mp earlier
      exact .inl ⟨older, before, after, rfl, earlier, others⟩
  · rintro (⟨older, before, after, rfl, earlier, others⟩ | ⟨rfl, others⟩)
    · exact ⟨first :: before, after, rfl, List.forall_mem_cons.mpr ⟨older, earlier⟩, others⟩
    · exact ⟨[], rest, rfl, fun _ member => absurd member List.not_mem_nil, others⟩

theorem getLast?_cons_heard {first latest : μ} {rest : List μ}
    (behind : (heard stamp (stamp first) rest).getLast? = some latest ↔
      stamp first < stamp latest ∧ Latest stamp rest latest) :
    (first :: heard stamp (stamp first) rest).getLast? = some latest ↔ Latest stamp (first :: rest) latest := by
  rw [List.getLast?_cons, Option.some.injEq, latest_cons_iff, ← heard_eq_nil_iff, ← behind]
  cases last : (heard stamp (stamp first) rest).getLast? with
  | none =>
    have silent := List.getLast?_eq_none_iff.mp last
    simp [silent, eq_comm]
  | some message =>
    have touched : heard stamp (stamp first) rest ≠ [] := fun silent => by simp [silent] at last
    simp [touched]

/-- The last write that is heard is the first of the latest. -/
theorem getLast?_heard_iff {seen : τ} {messages : List μ} {latest : μ} :
    (heard stamp seen messages).getLast? = some latest ↔ seen < stamp latest ∧ Latest stamp messages latest := by
  induction messages generalizing seen with
  | nil =>
    refine iff_of_false nofun ?_
    rintro ⟨-, before, after, none, -⟩
    exact List.append_ne_nil_of_right_ne_nil before (List.cons_ne_nil _ _) none.symm
  | cons first rest ih =>
    rw [heard]
    split
    · next newer =>
      rw [getLast?_cons_heard ih]
      refine ⟨fun latest => ⟨?_, latest⟩, And.right⟩
      obtain ⟨later, -⟩ | ⟨rfl, -⟩ := latest_cons_iff.mp latest
      · exact newer.trans later
      · exact newer
    · next older =>
      rw [ih, latest_cons_iff]
      refine and_congr_right fun later => ⟨fun latest => .inl ⟨(not_lt.mp older).trans_lt later, latest⟩, ?_⟩
      rintro (⟨-, latest⟩ | ⟨rfl, -⟩)
      · exact latest
      · exact absurd later older

/-- The last write that is heard behind a first one is the first of the latest. -/
theorem getLast?_cons_heard_iff {first latest : μ} {rest : List μ} :
    (first :: heard stamp (stamp first) rest).getLast? = some latest ↔ Latest stamp (first :: rest) latest :=
  getLast?_cons_heard getLast?_heard_iff

theorem Latest.unique {messages : List μ} {latest other : μ} (first : Latest stamp messages latest)
    (second : Latest stamp messages other) : latest = other := by
  cases messages with
  | nil =>
    obtain ⟨before, after, none, -⟩ := first
    exact absurd none.symm (List.append_ne_nil_of_right_ne_nil before (List.cons_ne_nil _ _))
  | cons head rest =>
    exact Option.some.inj ((getLast?_cons_heard_iff.mpr first).symm.trans (getLast?_cons_heard_iff.mpr second))

theorem lastWritten_of_getLast? {writes : μ → Option β} {value written : β} {messages : List μ} {latest : μ}
    (last : messages.getLast? = some latest) (writing : writes latest = some written) :
    lastWritten writes value messages = written := by
  obtain ⟨before, rfl⟩ := List.getLast?_eq_some_iff.mp last
  rw [lastWritten, List.foldl_append, List.foldl_cons, writing]
  rfl

/-- A guarded register takes exactly the writes that are heard. -/
theorem foldl_guarded (read : σ → τ) {write : μ → σ → σ} (stamps : ∀ message s, read (write message s) = stamp message)
    (s : σ) (messages : List μ) :
    messages.foldl (fun s message => if read s < stamp message then write message s else s) s =
      (heard stamp (read s) messages).foldl (fun s message => write message s) s := by
  induction messages generalizing s with
  | nil => rfl
  | cons first rest ih =>
    rw [List.foldl_cons, heard]
    split
    · rw [ih, stamps, List.foldl_cons]
    · exact ih s

/-- A column follows the writes that touch it. -/
theorem foldl_column {column : σ → β} {write : μ → σ → σ} {writes : μ → Option β}
    (touches : ∀ message s, column (write message s) = (writes message).getD (column s)) (s : σ) (messages : List μ) :
    column (messages.foldl (fun s message => write message s) s) = lastWritten writes (column s) messages := by
  induction messages generalizing s with
  | nil => rfl
  | cons first rest ih => rw [List.foldl_cons, ih, touches, lastWritten, lastWritten, List.foldl_cons]

section LastWritten

variable {writes : μ → Option β} {value : β} {messages : List μ}

theorem lastWritten_cons (writes : μ → Option β) (value : β) (first : μ) (rest : List μ) :
    lastWritten writes value (first :: rest) = lastWritten writes ((writes first).getD value) rest := rfl

theorem lastWritten_of_untouched (untouched : ∀ message ∈ messages, writes message = none) :
    lastWritten writes value messages = value := by
  induction messages with
  | nil => rfl
  | cons first rest ih =>
    obtain ⟨none, untouched⟩ := List.forall_mem_cons.mp untouched
    rw [lastWritten, List.foldl_cons, none]
    exact ih untouched

/-- A column that is touched does not show what it showed before. -/
theorem lastWritten_of_touched {message : μ} (member : message ∈ messages) (touched : writes message ≠ none)
    (value value' : β) : lastWritten writes value messages = lastWritten writes value' messages := by
  obtain ⟨before, after, rfl⟩ := List.append_of_mem member
  obtain ⟨written, writing⟩ := Option.ne_none_iff_exists'.mp touched
  simp only [lastWritten, List.foldl_append, List.foldl_cons, writing, Option.getD_some]

/-- The newest of writes in order is the last. -/
theorem lastWritten_of_newest (sorted : messages.Pairwise fun a b => stamp a < stamp b) {newest : μ} {written : β}
    (member : newest ∈ messages) (writing : writes newest = some written)
    (others : ∀ message ∈ messages, (writes message).isSome → stamp message ≤ stamp newest) :
    lastWritten writes value messages = written := by
  obtain ⟨before, after, rfl⟩ := List.append_of_mem member
  have untouched : ∀ message ∈ after, writes message = none := by
    intro message behind
    have later := (List.pairwise_cons.mp (List.pairwise_append.mp sorted).2.1).1 message behind
    by_contra touched
    have earlier := others message (List.mem_append_right _ (List.mem_cons_of_mem _ behind))
      (Option.isSome_iff_ne_none.mpr touched)
    exact absurd later (not_lt.mpr earlier)
  rw [lastWritten, List.foldl_append, List.foldl_cons, writing]
  exact lastWritten_of_untouched untouched

theorem exists_newest (stamp : μ → τ) (writes : μ → Option β) (messages : List μ) :
    (∀ message ∈ messages, writes message = none) ∨ ∃ newest ∈ messages, ∃ written, writes newest = some written ∧
      ∀ message ∈ messages, (writes message).isSome → stamp message ≤ stamp newest := by
  induction messages with
  | nil => exact .inl nofun
  | cons first rest ih =>
    cases writing : writes first with
    | none =>
      refine ih.imp (fun untouched => List.forall_mem_cons.mpr ⟨writing, untouched⟩) ?_
      rintro ⟨newest, member, written, touched, others⟩
      refine ⟨newest, List.mem_cons_of_mem _ member, written, touched, List.forall_mem_cons.mpr ⟨fun touches => ?_, others⟩⟩
      simp [writing] at touches
    | some written =>
      right
      obtain untouched | ⟨newest, member, written', touched, others⟩ := ih
      · refine ⟨first, List.mem_cons_self, written, writing, List.forall_mem_cons.mpr ⟨fun _ => le_refl _, ?_⟩⟩
        intro message member touches
        simp [untouched message member] at touches
      · obtain later | earlier := le_total (stamp first) (stamp newest)
        · exact ⟨newest, List.mem_cons_of_mem _ member, written', touched, List.forall_mem_cons.mpr ⟨fun _ => later, others⟩⟩
        · exact ⟨first, List.mem_cons_self, written, writing, List.forall_mem_cons.mpr
            ⟨fun _ => le_refl _, fun message member touches => (others message member touches).trans earlier⟩⟩

/-- What has been seen last is the latest stamp. -/
theorem lastWritten_stamp (seen : τ) (messages : List μ) :
    lastWritten (fun message => some (stamp message)) seen (heard stamp seen messages) =
      messages.foldl (fun seen message => max seen (stamp message)) seen := by
  induction messages generalizing seen with
  | nil => rfl
  | cons first rest ih =>
    rw [heard, List.foldl_cons]
    split
    · next newer => rw [lastWritten_cons, Option.getD_some, ih, max_eq_right newer.le]
    · next older => rw [ih, max_eq_left (not_lt.mp older)]

/-- It does not depend on the order. -/
theorem lastWritten_stamp_perm (seen : τ) {sorted : List μ} (reordered : sorted.Perm messages) :
    lastWritten (fun message => some (stamp message)) seen (heard stamp seen messages) =
      lastWritten (fun message => some (stamp message)) seen (heard stamp seen sorted) := by
  have commutes : RightCommutative fun (seen : τ) (message : μ) => max seen (stamp message) :=
    ⟨fun seen a b => max_right_comm seen (stamp a) (stamp b)⟩
  rw [lastWritten_stamp, lastWritten_stamp, reordered.foldl_eq]

section Time

variable {θ : Type} [LinearOrder θ] {time : μ → θ} {seen : τ} {sorted : List μ}

/-- In the order of time the leading writes are heard. -/
theorem mem_heard_iff_leads (reordered : sorted.Perm messages) (inOrder : sorted.Pairwise fun a b => time a < time b)
    (message : μ) : message ∈ heard stamp seen sorted ↔ Leads stamp time seen messages message := by
  rw [mem_heard_iff]
  constructor
  · rintro ⟨before, after, rfl, later, earlier⟩
    refine ⟨reordered.mem_iff.mp (List.mem_append_right _ List.mem_cons_self), later, fun other member older => ?_⟩
    obtain inFront | behind := List.mem_append.mp (reordered.mem_iff.mpr member)
    · exact earlier other inFront
    · have after := List.pairwise_cons.mp (List.pairwise_append.mp inOrder).2.1
      obtain rfl | behind := List.mem_cons.mp behind
      · exact absurd older (lt_irrefl _)
      · exact absurd older (after.1 other behind).asymm
  · rintro ⟨member, later, leading⟩
    obtain ⟨before, after, rfl⟩ := List.append_of_mem (reordered.mem_iff.mpr member)
    refine ⟨before, after, rfl, later, fun other inFront => leading other ?_ ?_⟩
    · exact reordered.mem_iff.mp (List.mem_append_left _ inFront)
    · exact (List.pairwise_append.mp inOrder).2.2 other inFront message List.mem_cons_self

/-- A column shows the same as in the order of time exactly when its newest leading write is shown. -/
theorem lastWritten_heard_eq_iff (reordered : sorted.Perm messages)
    (inOrder : sorted.Pairwise fun a b => time a < time b) :
    lastWritten writes value (heard stamp seen messages) = lastWritten writes value (heard stamp seen sorted) ↔
      Shown stamp time writes value seen messages := by
  have leads (message : μ) : message ∈ heard stamp seen sorted ↔ Leads stamp time seen messages message :=
    mem_heard_iff_leads reordered inOrder message
  have heardSorted (messages : List μ) : (heard stamp seen messages).Pairwise fun a b => stamp a < stamp b :=
    heard_sorted seen messages
  constructor
  · intro same
    constructor
    · intro newest written leading writing others
      exact .inr (same.trans (lastWritten_of_newest (heardSorted sorted) ((leads newest).mpr leading) writing
        fun message member => others message ((leads message).mp member)))
    · intro untouched
      exact .inr (same.trans (lastWritten_of_untouched fun message member =>
        untouched message ((leads message).mp member)))
  · intro shown
    obtain untouched | ⟨newest, member, written, writing, others⟩ := exists_newest stamp writes (heard stamp seen sorted)
    · rw [lastWritten_of_untouched untouched]
      obtain silent | same := shown.untouched fun message leading => untouched message ((leads message).mpr leading)
      · exact lastWritten_of_untouched silent
      · exact same
    · rw [lastWritten_of_newest (heardSorted sorted) member writing others]
      obtain ⟨isHeard, last⟩ | same := shown.newest newest written ((leads newest).mp member) writing
        fun message leading => others message ((leads message).mpr leading)
      · exact lastWritten_of_newest (heardSorted messages) isHeard writing last
      · exact same

end Time

end LastWritten

end Stamped

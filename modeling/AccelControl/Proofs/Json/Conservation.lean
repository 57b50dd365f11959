import AccelControl.Proofs.Json.Framing

/-! Bytes that go through a buffer.

A buffer is fed and asked for values, in any order and any number of times. Nothing is lost, made up or
moved: what was taken off the front, in order, and what is left behind it make up all that was fed. And
what was taken off for a value is the text of that value, with white space in front.
-/

set_option autoImplicit false

namespace AccelControl.Json

inductive Use where
  | feed (bytes : Bytes)
  /-- Ask for the first value. -/
  | take
  deriving DecidableEq, Repr

structure Demand where
  before : Bytes
  answer : Taken

namespace Demand

def after (d : Demand) : Bytes :=
  match d.answer with
  | .value _ rest => rest
  | .incomplete | .malformed => d.before

def removed (d : Demand) : Bytes := d.before.take (d.before.length - d.after.length)

end Demand

def demand (buffer : Bytes) : Demand := ⟨buffer, take buffer⟩

def demands (buffer : Bytes) : List Use → List Demand
  | [] => []
  | .feed bytes :: uses => demands (buffer ++ bytes) uses
  | .take :: uses => demand buffer :: demands (demand buffer).after uses

def used (buffer : Bytes) : List Use → Bytes
  | [] => buffer
  | .feed bytes :: uses => used (buffer ++ bytes) uses
  | .take :: uses => used (demand buffer).after uses

def fed : List Use → Bytes
  | [] => []
  | .feed bytes :: uses => bytes ++ fed uses
  | .take :: uses => fed uses

/-- To take one value after each feed is such a use of a buffer. -/
theorem takeEach_eq_demands (buffer : Bytes) (feeds : List Bytes) : takeEach buffer feeds
    = (demands buffer (feeds.flatMap fun feed => [.feed feed, .take])).map
      fun d => (d.answer, d.after) := by
  induction feeds generalizing buffer with
  | nil => rfl
  | cons feed feeds ih =>
    rw [takeEach, ih]
    rfl

/-- White space, then the text of one value and nothing else. -/
def SpacedText (segment : Bytes) (v : Json) : Prop :=
  ∃ space text, segment = space ++ text ∧ (∀ b ∈ space, isSpace b = true) ∧
    skipSpace text = text ∧ readValue text = .ok (v, [])

/-- A value that is read in front of other bytes is read without them. -/
theorem readValueFrom_cut {bound bound' : Nat} {depth : Nat} {text rest : Bytes} {v : Json}
    (fits : text.length < bound) (fits' : (text ++ rest).length < bound')
    (found : readValueFrom readNumber bound' depth (text ++ rest) = .ok (v, rest)) :
    readValueFrom readNumber bound depth text = .ok (v, []) := by
  have foretold := readValueFrom_foretells consumes_readNumber consumes_readNumber
    readNumber_foretells depth fits fits'
  rw [found] at foretold
  exact foretold.ok_of_cut not_false

/-- White space in front of the text makes no difference to the value. -/
theorem SpacedText.parse {segment : Bytes} {v : Json} (spaced : SpacedText segment v) :
    parse segment = .ok v := by
  obtain ⟨space, text, rfl, blank, begun, read⟩ := spaced
  have skipped : skipSpace (space ++ text) = text := by
    rw [skipSpace_append_of_nil (skipSpace_eq_nil blank), begun]
  have whole : readValue (space ++ text) = .ok (v, []) := by
    rw [readValue, readValueBy, ← readValueFrom_skipSpace, skipped]
    -- The two readings differ only in the bound that they put on the length.
    have read : readValueFrom readNumber (text.length + 1) greatestDepth (text ++ []) = .ok (v, []) := by
      rwa [List.append_nil]
    refine readValueFrom_cut (Nat.lt_succ_of_le ?_) (by simp) read
    simp
  simp only [Json.parse, readAll, whole]
  rfl

theorem skipSpace_of_prefix {p text rest : Bytes} (split : skipSpace p = text ++ rest)
    (nonempty : text ≠ []) : skipSpace text = text := by
  cases text with
  | nil => exact absurd rfl nonempty
  | cons b text =>
    have first := List.head?_dropWhile_not isSpace p
    rw [show p.dropWhile isSpace = b :: (text ++ rest) from split] at first
    exact List.dropWhile_cons_of_neg (by simpa using first)

theorem spacedText_of_take {buffer rest : Bytes} {v : Json} (found : take buffer = .value v rest) :
    ∃ segment, buffer = segment ++ rest ∧ SpacedText segment v := by
  have read := readValue_of_take found
  obtain ⟨⟨text, split⟩, shorter⟩ := consumes_readValueBy consumes_readNumber _ _ _ read
  have nonempty : text ≠ [] := by
    rintro rfl
    rw [← split] at shorter
    exact absurd shorter (Nat.lt_irrefl _)
  refine ⟨buffer.takeWhile isSpace ++ text, ?_, _, text, rfl, ?_, ?_, ?_⟩
  · rw [List.append_assoc, split]
    exact List.takeWhile_append_dropWhile.symm
  · exact fun b mem => List.mem_takeWhile_imp mem
  · exact skipSpace_of_prefix split.symm nonempty
  · rw [← split] at read
    exact readValueFrom_cut (Nat.lt_succ_self _) (Nat.lt_succ_self _) read

theorem SpacedText.take {segment : Bytes} {v : Json} (spaced : SpacedText segment v)
    (parts : v.HasParts) (rest : Bytes) : take (segment ++ rest) = .value v rest := by
  obtain ⟨space, text, rfl, blank, begun, read⟩ := spaced
  have marked := marked_of_hasParts read parts
  have alone : Json.take text = .value v [] := (take_ok_marked marked).2 (by rwa [begun])
  rw [List.append_assoc, ← take_skipSpace, skipSpace_append_of_nil (skipSpace_eq_nil blank),
    take_skipSpace]
  exact take_append marked alone rest

namespace Demand

/-- The text of the value that is given has been taken off the front of the buffer. Without a value the
buffer is as it was. -/
def Sound (d : Demand) : Prop :=
  match d.answer with
  | .value v _ => d.before = d.removed ++ d.after ∧ SpacedText d.removed v ∧ parse d.removed = .ok v
  | .incomplete | .malformed => d.after = d.before ∧ d.removed = []

theorem removed_of_split {d : Demand} {segment : Bytes} (split : d.before = segment ++ d.after) :
    d.removed = segment := by
  simp [removed, split]

theorem Sound.conserves {d : Demand} (sound : d.Sound) : d.removed ++ d.after = d.before := by
  unfold Sound at sound
  split at sound
  · exact sound.1.symm
  · rw [sound.2, sound.1, List.nil_append]
  · rw [sound.2, sound.1, List.nil_append]

end Demand

theorem demand_sound (buffer : Bytes) : (demand buffer).Sound := by
  rw [demand]
  cases answer : take buffer with
  | value v rest =>
    obtain ⟨segment, split, spaced⟩ := spacedText_of_take answer
    have removed : Demand.removed ⟨buffer, .value v rest⟩ = segment := Demand.removed_of_split split
    rw [← removed] at split spaced
    exact ⟨split, spaced, spaced.parse⟩
  | incomplete => exact ⟨rfl, by simp [Demand.removed, Demand.after]⟩
  | malformed => exact ⟨rfl, by simp [Demand.removed, Demand.after]⟩

theorem eq_demand_of_mem {buffer : Bytes} {uses : List Use} {d : Demand}
    (mem : d ∈ demands buffer uses) : d = demand d.before := by
  induction uses generalizing buffer with
  | nil => exact nomatch mem
  | cons use uses ih =>
    cases use with
    | feed bytes => exact ih mem
    | take =>
      rcases List.mem_cons.1 mem with rfl | later
      · rfl
      · exact ih later

/-- What was taken off a buffer and what is left of it make up what it held and all that it was fed. -/
theorem removed_append_used (buffer : Bytes) (uses : List Use) :
    (demands buffer uses).flatMap Demand.removed ++ used buffer uses = buffer ++ fed uses := by
  induction uses generalizing buffer with
  | nil => simp [demands, used, fed]
  | cons use uses ih =>
    cases use with
    | feed bytes => rw [demands, used, fed, ih, List.append_assoc]
    | take =>
      rw [demands, used, fed, List.flatMap_cons, List.append_assoc, ih, ← List.append_assoc,
        (demand_sound buffer).conserves]
      rfl

/-- However a buffer is fed and asked for values: what was taken off it, in order, and what is left of
it are all that it was fed. Each time the text of the value that was given was taken off, or nothing.
And the text of an array or object that stands in front is taken off. -/
theorem bytes_conserved (uses : List Use) :
    (demands [] uses).flatMap Demand.removed ++ used [] uses = fed uses ∧
      ∀ d ∈ demands [] uses, d.Sound ∧
        ∀ segment v rest, d.before = segment ++ rest → SpacedText segment v → v.HasParts →
          d.answer = .value v rest := by
  refine ⟨removed_append_used [] uses, fun d mem => ?_⟩
  rw [eq_demand_of_mem mem]
  refine ⟨demand_sound d.before, fun segment v rest split spaced parts => ?_⟩
  rw [demand] at split ⊢
  rw [split]
  exact spaced.take parts rest

end AccelControl.Json

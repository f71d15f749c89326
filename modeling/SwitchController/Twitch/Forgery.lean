import SwitchController.Twitch.Irc

/-!
# Who said it

The program trusts the chat server for the names of those who write: whatever a viewer writes, it
comes with a header that names them. But it is `recv(1024)` that decides where a header is looked
for. When more than that is there to be read, one call gives `1024` bytes of it, and the next one
starts in the middle of a line. If the line goes on with something that looks like a header, that is
taken for one.

So anybody can speak for anybody else, and what `handleChat` asks of the name protects nothing. The
text has only to be long enough to reach the next border
(`SwitchController.Twitch.exists_forged`); where that is depends on what is still unread when the
text arrives, and the more there is of it, the less is needed. It is a call that gives less than
what is there, which TCP allows, that would move the borders (`SwitchController.Twitch.Drains`).
-/

namespace SwitchController

namespace Twitch

/-- **`recv(1024)`, again and again**, when all the bytes are there before they are asked for: each
call gives `1024` bytes, or all that is left. -/
inductive Drains : ByteArray → List ByteArray → Prop
  | done : Drains ByteArray.empty []
  | rest {buf : ByteArray} (hpos : 0 < buf.size) (hle : buf.size ≤ 1024) : Drains buf [buf]
  | block {block buf : ByteArray} {chunks : List ByteArray} (hsize : block.size = 1024)
      (h : Drains buf chunks) : Drains (block ++ buf) (block :: chunks)

/-- Whatever is there can be read so. -/
theorem exists_drains (buf : ByteArray) : ∃ chunks, Drains buf chunks := by
  induction hn : buf.size using Nat.strong_induction_on generalizing buf with
  | _ n ih =>
    subst hn
    by_cases hle : buf.size ≤ 1024
    · by_cases hempty : buf = ByteArray.empty
      · exact ⟨[], hempty ▸ .done⟩
      · exact ⟨[buf], .rest (Nat.pos_of_ne_zero (mt ByteArray.size_eq_zero_iff.mp hempty)) hle⟩
    · have hsplit : buf.extract 0 1024 ++ buf.extract 1024 buf.size = buf := by
        rw [← ByteArray.extract_eq_extract_append_extract 1024 (Nat.zero_le _) (by omega),
          ByteArray.extract_zero_size]
      have hsize : (buf.extract 0 1024).size = 1024 := by
        rw [ByteArray.size_extract]
        omega
      obtain ⟨chunks, hchunks⟩ := ih (buf.extract 1024 buf.size).size
        (by rw [ByteArray.size_extract]; omega) _ rfl
      have hblock := Drains.block hsize hchunks
      rw [hsplit] at hblock
      exact ⟨_, hblock⟩

theorem Drains.eq_nil_of_empty {chunks : List ByteArray} {buf : ByteArray} (h : Drains buf chunks)
    (hbuf : buf.size = 0) : chunks = [] := by
  cases h with
  | done => rfl
  | rest hpos hle => omega
  | block hsize h =>
    rw [ByteArray.size_append] at hbuf
    omega

/-- Where two ways to cut the same bytes are compared. -/
theorem exists_of_append_eq_append {block buf front rest : ByteArray}
    (h : block ++ buf = front ++ rest) (hle : block.size ≤ front.size) :
    ∃ between, front = block ++ between ∧ buf = between ++ rest := by
  have hfront : front.extract 0 block.size ++ front.extract block.size front.size = front := by
    rw [← ByteArray.extract_eq_extract_append_extract block.size (Nat.zero_le _) hle,
      ByteArray.extract_zero_size]
  have hcut : block ++ buf =
      front.extract 0 block.size ++ (front.extract block.size front.size ++ rest) := by
    rw [h, ← ByteArray.append_assoc, hfront]
  have hblock : block = front.extract 0 block.size :=
    ByteArray.append_inj_left hcut (by rw [ByteArray.size_extract]; omega)
  rw [← hblock] at hcut hfront
  exact ⟨_, hfront.symm, (ByteArray.append_right_inj _).mp hcut⟩

/-- **There is a border** after every `1024` bytes. -/
theorem Drains.border {buf front rest : ByteArray} {chunks : List ByteArray} (h : Drains buf chunks)
    (hbuf : buf = front ++ rest) (hfront : front.size % 1024 = 0) (hpos : 0 < rest.size)
    (hle : rest.size ≤ 1024) : ∃ before, chunks = before ++ [rest] := by
  induction h generalizing front with
  | done =>
    have hsize := congrArg ByteArray.size hbuf
    rw [ByteArray.size_append, ByteArray.size_empty] at hsize
    omega
  | @rest buf _ hbufle =>
    have hsize := congrArg ByteArray.size hbuf
    rw [ByteArray.size_append] at hsize
    have hnone : front = ByteArray.empty := ByteArray.size_eq_zero_iff.mp (by omega)
    rw [hnone, ByteArray.empty_append] at hbuf
    exact ⟨[], by rw [hbuf, List.nil_append]⟩
  | @block block buf chunks hblock hchunks ih =>
    have hsize := congrArg ByteArray.size hbuf
    rw [ByteArray.size_append, ByteArray.size_append] at hsize
    by_cases hnone : front.size = 0
    · -- the forged line would be all there is, and exactly one block
      rw [ByteArray.size_eq_zero_iff.mp hnone, ByteArray.empty_append] at hbuf
      have hlast : buf.size = 0 := by omega
      rw [ByteArray.size_eq_zero_iff.mp hlast, ByteArray.append_empty] at hbuf
      exact ⟨[], by rw [hchunks.eq_nil_of_empty hlast, hbuf, List.nil_append]⟩
    · obtain ⟨between, hfront', hrest⟩ := exists_of_append_eq_append hbuf (by omega)
      have hbetween : between.size % 1024 = 0 := by
        rw [hfront', ByteArray.size_append] at hfront
        omega
      obtain ⟨before, hbefore⟩ := ih hrest hbetween
      exact ⟨block :: before, by rw [hbefore, List.cons_append]⟩

variable {U : Unicode}

theorem size_encode_replicate (n : ℕ) : (encode (List.replicate n 'x')).size = n := by
  induction n with
  | zero => rfl
  | succ n ih =>
    rw [List.replicate_succ, ← List.singleton_append, encode_append, ByteArray.size_append, ih]
    exact Nat.add_comm 1 n

/-- A word is on one line, -/
theorem Word.oneLine (w : Word U) : '\n' ∉ w.text := fun h =>
  absurd (w.word _ h) (by simp [U.word_ascii '\n' (by decide), asciiWord])

/-- and so is a header. -/
theorem PrivMsg.header_oneLine (m : PrivMsg U) : '\n' ∉ m.header := by
  have hliteral : '\n' ∉ (":" : Str) ∧ '\n' ∉ ("!" : Str) ∧ '\n' ∉ ("@" : Str) ∧
      '\n' ∉ (".tmi.twitch.tv PRIVMSG #" : Str) ∧ '\n' ∉ (" :" : Str) := by decide
  obtain ⟨hcolon, hbang, hat, hhost, hblank⟩ := hliteral
  rw [← List.append_nil m.header, header_append]
  simp only [List.mem_append, not_or, hcolon, hbang, hat, hhost, hblank, m.nick.oneLine,
    m.user.oneLine, m.host.oneLine, m.channel.oneLine, List.not_mem_nil, not_false_eq_true,
    and_self]

/-- The header does not depend on the text. -/
theorem PrivMsg.header_withText (m : PrivMsg U) {text : Str} (h : '\n' ∉ text) :
    ({ m with text := text, oneLine := h } : PrivMsg U).header = m.header := rfl

/-- **Anybody can speak for anybody.** Whatever there is to read before it, a viewer has a text –
one that ends with the line they forge, after enough characters to reach the next border – such
that the program takes the end of it for a message of its own, from whom and with what they like,
if it reads all of it in full calls. -/
theorem exists_forged (unread : ByteArray) (viewer m : PrivMsg U)
    (hle : (encode (Line.privmsg m).text).size ≤ 1024) :
    ∃ said : PrivMsg U, said.header = viewer.header ∧
      said.text.length = (1024 - (unread.size + (encode viewer.header).size) % 1024) % 1024 +
        (m.header ++ m.text).length ∧
      ∀ chunks, Drains (unread ++ encode (Line.privmsg said).text) chunks →
        ∃ front, chunks.flatMap U.loop = front ++ (Line.privmsg m).expected := by
  let n := (1024 - (unread.size + (encode viewer.header).size) % 1024) % 1024
  have honeLine : '\n' ∉ List.replicate n 'x' ++ (m.header ++ m.text) := by
    simp only [List.mem_append, not_or]
    exact ⟨fun h => absurd (List.eq_of_mem_replicate h) (by decide), m.header_oneLine, m.oneLine⟩
  let said : PrivMsg U := { viewer with
    text := List.replicate n 'x' ++ (m.header ++ m.text), oneLine := honeLine }
  have hheader : said.header = viewer.header := viewer.header_withText honeLine
  refine ⟨said, hheader, ?_, ?_⟩
  · rw [List.length_append, List.length_replicate]
  · intro chunks hchunks
    have hline : unread ++ encode (Line.privmsg said).text =
        (unread ++ encode (viewer.header ++ List.replicate n 'x')) ++
          encode (Line.privmsg m).text := by
      rw [ByteArray.append_assoc, ← encode_append, Line.text, Line.text, hheader]
      simp only [said, List.append_assoc]
    -- the border is right before the forged line
    have hborder : (unread ++ encode (viewer.header ++ List.replicate n 'x')).size % 1024 = 0 := by
      rw [encode_append, ByteArray.size_append, ByteArray.size_append, size_encode_replicate]
      omega
    have hpos : 0 < (encode (Line.privmsg m).text).size := by
      have hcolon : (encode ":").size = 1 := rfl
      rw [Line.text, header_append, encode_append, ByteArray.size_append, hcolon]
      exact Nat.add_pos_left Nat.one_pos _
    obtain ⟨before, rfl⟩ := hchunks.border hline hborder hpos hle
    have hread := loop_of_arrives (arrives_single (Line.privmsg m))
    rw [List.flatMap_singleton] at hread
    exact ⟨before.flatMap U.loop,
      by rw [List.flatMap_append, List.flatMap_singleton, hread]⟩

/-- A word of ASCII characters. -/
def Word.ofAscii (text : Str) (h : text ≠ [] ∧ text.all Unicode.ascii.word = true) :
    Word .ascii where
  text := text
  ne_nil := h.1
  word := List.all_eq_true.mp h.2

/-- What a moderator might say. -/
def banLine : PrivMsg Unicode.ascii where
  nick := .ofAscii "silvermagpi" (by decide)
  user := .ofAscii "silvermagpi" (by decide)
  host := .ofAscii "silvermagpi" (by decide)
  channel := .ofAscii "twitchplaysconsoles" (by decide)
  text := "!ban viewer"
  oneLine := by decide

/-- A viewer. -/
def viewerLine : PrivMsg Unicode.ascii where
  nick := .ofAscii "viewer" (by decide)
  user := .ofAscii "viewer" (by decide)
  host := .ofAscii "viewer" (by decide)
  channel := .ofAscii "twitchplaysconsoles" (by decide)
  text := []
  oneLine := List.not_mem_nil

/-- `900` bytes of other lines are still to be read: the viewer bans in the name of the moderator
with a text of `150` characters. -/
theorem exists_forged_ban :
    ∃ said : PrivMsg Unicode.ascii, said.header = viewerLine.header ∧ said.text.length = 150 ∧
      ∃ chunks front,
        Drains (encode (List.replicate 900 'x') ++ encode (Line.privmsg said).text) chunks ∧
          chunks.flatMap Unicode.ascii.loop =
            front ++ [.handleChat "silvermagpi" "!ban viewer"] := by
  have hle : (encode (Line.privmsg banLine).text).size ≤ 1024 := by decide +kernel
  have hlength : (1024 - (900 + (encode viewerLine.header).size) % 1024) % 1024 +
      (banLine.header ++ banLine.text).length = 150 := by decide +kernel
  have hexpected : (Line.privmsg banLine).expected =
      [.handleChat "silvermagpi" "!ban viewer"] := by decide +kernel
  obtain ⟨said, hheader, hsaid, hforged⟩ :=
    exists_forged (encode (List.replicate 900 'x')) viewerLine banLine hle
  rw [size_encode_replicate, hlength] at hsaid
  obtain ⟨chunks, hchunks⟩ :=
    exists_drains (encode (List.replicate 900 'x') ++ encode (Line.privmsg said).text)
  obtain ⟨front, hfront⟩ := hforged chunks hchunks
  exact ⟨said, hheader, hsaid, chunks, front, hchunks,
    hfront.trans (congrArg (front ++ ·) hexpected)⟩

end Twitch

end SwitchController

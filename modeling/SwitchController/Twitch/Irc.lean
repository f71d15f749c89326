import SwitchController.Twitch.Text

/-!
# The chat as it comes in

The program reads the chat from a socket, and takes what one call of `recv` gives for one
message: if it is the line of a `PING`, a `PONG` is sent; else the first word is the name of the
sender, and what follows the header, if there is one at the start, is the message.

TCP gives no such promise. A chunk may hold several lines, or a part of one. Each chunk gives one
message at most, so lines that come in one chunk are lost but for one of them, and the sender is
told by the first word of the chunk, whoever wrote it
(`SwitchController.Twitch.received_iff_of_merged`). What is read is what was sent if every line
comes in a chunk of its own; only blanks at its end may come later
(`SwitchController.Twitch.received_arrivals`).
-/

namespace SwitchController

namespace Twitch

/-! ### Reading a chunk -/

/-- What is done with a chunk. -/
inductive IrcObs where
  /-- `PONG :tmi.twitch.tv` is sent. -/
  | pong
  /-- `handleChat(username, message)`. -/
  | handleChat (username message : Str)
  deriving DecidableEq

/-- The bytes of a text. -/
def encode (s : Str) : ByteArray := (String.ofList s).toUTF8

/-- `decode("utf-8")`, where it does not raise. -/
def decode (chunk : ByteArray) : Option Str := chunk.utf8Decode?.map Array.toList

theorem decode_encode (s : Str) : decode (encode s) = some s := by
  have hencode : encode s = s.utf8Encode := rfl
  rw [decode, hencode, List.utf8Decode?_utf8Encode, Option.map_some]

theorem encode_append (s t : Str) : encode (s ++ t) = encode s ++ encode t :=
  List.utf8Encode_append

/-- The line of a `PING`. -/
def pingLine : Str := "PING :tmi.twitch.tv\r\n"

/-- **`stayConnected`**: what is sent, and what is returned. -/
def stayConnected (chunk : ByteArray) : List IrcObs × Str :=
  let response := (decode chunk).getD "none"
  if response = pingLine then ([.pong], "none") else ([], response)

/-- A literal of a regular expression, and what is left of the text. -/
def expect : Str → Str → Option Str
  | [], s => some s
  | _ :: _, [] => none
  | p :: ps, c :: s => if p = c then expect ps s else none

namespace Unicode

variable (U : Unicode)

/-- `\w+` of a regular expression, and what is left of the text. What comes next in `CHAT_MSG` is
never part of a word, so there is no shorter match to try. -/
def word1 (s : Str) : Option Str :=
  if s.takeWhile U.word = [] then none else some (s.dropWhile U.word)

/-- **`CHAT_MSG`**, at the start of a text: what is left after the match. -/
def chatMsg (s : Str) : Option Str := do
  let s ← expect ":" s
  let s ← U.word1 s
  let s ← expect "!" s
  let s ← U.word1 s
  let s ← expect "@" s
  let s ← U.word1 s
  let s ← expect ".tmi.twitch.tv PRIVMSG #" s
  let s ← U.word1 s
  expect " :" s

/-- `re.search(r"\w+", response).group(0)`, empty where it raises. -/
def firstWord (s : Str) : Str := (s.dropWhile (!U.word ·)).takeWhile U.word

/-- **`Client.loop`**, what it does about the chat. -/
def loop (chunk : ByteArray) : List IrcObs :=
  let (sent, response) := stayConnected chunk
  if response = "none" ∨ U.firstWord response = [] then sent
  else
    sent ++ [.handleChat (U.lower (U.firstWord response))
      (U.lower (U.strip ((U.chatMsg response).getD response)))]

end Unicode

/-! ### Lines -/

/-- A word. -/
structure Word (U : Unicode) where
  text : Str
  ne_nil : text ≠ []
  word : ∀ ch ∈ text, U.word ch = true

/-- A message of the chat. -/
structure PrivMsg (U : Unicode) where
  nick : Word U
  user : Word U
  host : Word U
  channel : Word U
  text : Str
  oneLine : '\n' ∉ text

/-- **The lines of the stream.** -/
inductive Line (U : Unicode) where
  | ping
  | privmsg (m : PrivMsg U)

section

variable {U : Unicode}

/-- What comes before the text, as `CHAT_MSG` matches it. -/
def PrivMsg.header (m : PrivMsg U) : Str :=
  ":" ++ m.nick.text ++ "!" ++ m.user.text ++ "@" ++ m.host.text ++ ".tmi.twitch.tv PRIVMSG #" ++
    m.channel.text ++ " :"

/-- The end of a line. -/
def crlf : Str := "\r\n"

/-- A line as it is sent. -/
def Line.text : Line U → Str
  | .ping => pingLine
  | .privmsg m => m.header ++ (m.text ++ crlf)

/-- **What should be done about a line.** -/
def Line.expected : Line U → List IrcObs
  | .ping => [.pong]
  | .privmsg m => [.handleChat (U.lower m.nick.text) (U.lower (U.strip m.text))]

/-! ### Headers -/

theorem expect_append (lit s : Str) : expect lit (lit ++ s) = some s := by
  induction lit with
  | nil => rfl
  | cons ch lit ih => rw [List.cons_append, expect, if_pos rfl, ih]

/-- Text that does not go on a word. -/
def StopsWord (U : Unicode) (s : Str) : Prop := ∃ ch l, s = ch :: l ∧ U.word ch = false

theorem stopsWord_ascii (U : Unicode) {ch : Char} {l : Str} (h : ch.toNat < 128)
    (hch : asciiWord ch = false) : StopsWord U (ch :: l) :=
  ⟨ch, l, rfl, (U.word_ascii ch h).trans hch⟩

theorem takeWhile_word (w : Word U) {s : Str} (hs : StopsWord U s) :
    (w.text ++ s).takeWhile U.word = w.text := by
  obtain ⟨ch, l, rfl, hch⟩ := hs
  rw [List.takeWhile_append_of_pos w.word, List.takeWhile_cons_of_neg (by simp [hch]),
    List.append_nil]

theorem word1_append (w : Word U) {s : Str} (hs : StopsWord U s) :
    U.word1 (w.text ++ s) = some s := by
  rw [Unicode.word1, takeWhile_word w hs, if_neg w.ne_nil, List.dropWhile_append_of_pos w.word]
  obtain ⟨ch, l, rfl, hch⟩ := hs
  rw [List.dropWhile_cons_of_neg (by simp [hch])]

theorem header_append (m : PrivMsg U) (s : Str) :
    m.header ++ s = ":" ++ (m.nick.text ++ ("!" ++ (m.user.text ++ ("@" ++
      (m.host.text ++ (".tmi.twitch.tv PRIVMSG #" ++ (m.channel.text ++ (" :" ++ s)))))))) := by
  -- with variables for the literals, which are not to be unfolded
  have hassoc : ∀ a b c d e f g h i s : Str, a ++ b ++ c ++ d ++ e ++ f ++ g ++ h ++ i ++ s =
      a ++ (b ++ (c ++ (d ++ (e ++ (f ++ (g ++ (h ++ (i ++ s)))))))) := by
    intros
    simp only [List.append_assoc]
  exact hassoc ..

/-- **The header is taken off.** -/
theorem chatMsg_header (m : PrivMsg U) (s : Str) : U.chatMsg (m.header ++ s) = some s := by
  have hbang : ∀ s, StopsWord U ("!" ++ s) := fun _ => stopsWord_ascii U (by decide) (by decide)
  have hat : ∀ s, StopsWord U ("@" ++ s) := fun _ => stopsWord_ascii U (by decide) (by decide)
  have hdot : ∀ s, StopsWord U (".tmi.twitch.tv PRIVMSG #" ++ s) :=
    fun _ => stopsWord_ascii U (by decide) (by decide)
  have hblank : ∀ s, StopsWord U (" :" ++ s) := fun _ => stopsWord_ascii U (by decide) (by decide)
  rw [header_append, Unicode.chatMsg]
  simp only [Option.bind_eq_bind, Option.bind_some, expect_append, word1_append _ (hbang _),
    word1_append _ (hat _), word1_append _ (hdot _), word1_append _ (hblank _)]

/-- **The first word is the sender.** -/
theorem firstWord_header (m : PrivMsg U) (s : Str) : U.firstWord (m.header ++ s) = m.nick.text := by
  have hcolon : U.word ':' = false := (U.word_ascii _ (by decide)).trans (by decide)
  -- the colon is skipped, and the name is not empty, so the search ends at its first letter
  obtain ⟨ch, nick, hnick⟩ := List.exists_cons_of_ne_nil m.nick.ne_nil
  have hch : U.word ch = true := m.nick.word ch (by rw [hnick]; exact List.mem_cons_self)
  have hdrop : ∀ s : Str, (":" ++ (m.nick.text ++ s)).dropWhile (!U.word ·) = m.nick.text ++ s := by
    intro s
    change (':' :: (m.nick.text ++ s)).dropWhile (!U.word ·) = m.nick.text ++ s
    rw [List.dropWhile_cons_of_pos (by simp [hcolon]), hnick, List.cons_append,
      List.dropWhile_cons_of_neg (by simp [hch])]
  rw [header_append, Unicode.firstWord, hdrop]
  exact takeWhile_word m.nick (stopsWord_ascii U (by decide) (by decide))

/-! ### Blanks -/

theorem rdropWhile_append_blanks (s : Str) {blanks : Str} (h : ∀ ch ∈ blanks, U.space ch = true) :
    (s ++ blanks).rdropWhile U.space = s.rdropWhile U.space := by
  induction blanks using List.reverseRecOn with
  | nil => rw [List.append_nil]
  | append_singleton blanks ch ih =>
    obtain ⟨hblanks, hch⟩ := List.forall_mem_append.mp h
    rw [← List.append_assoc, List.rdropWhile_concat_pos _ _ _ (hch ch (List.mem_singleton_self _)),
      ih hblanks]

/-- Blanks at the end do not matter. -/
theorem strip_append_blanks (s : Str) {blanks : Str} (h : ∀ ch ∈ blanks, U.space ch = true) :
    U.strip (s ++ blanks) = U.strip s := by
  rw [Unicode.strip, Unicode.strip, List.dropWhile_append]
  -- a text of blanks only is stripped away, with or without more of them
  split_ifs with hempty
  · rw [List.isEmpty_iff.mp hempty, List.dropWhile_eq_nil_iff.mpr h]
  · exact rdropWhile_append_blanks _ h

/-- A chunk of blanks is ignored. -/
theorem loop_blanks {blanks : Str} (h : ∀ ch ∈ blanks, U.space ch = true) :
    U.loop (encode blanks) = [] := by
  have hword : U.firstWord blanks = [] := by
    rw [Unicode.firstWord, List.dropWhile_eq_nil_iff.mpr fun ch hch => by
      simp [U.word_of_space ch (h ch hch)]]
    rfl
  have hping : blanks ≠ pingLine := by
    rintro rfl
    have hP : U.space 'P' = false := (U.space_ascii _ (by decide)).trans (by decide)
    exact absurd (h 'P' (by decide)) (by simp [hP])
  rw [Unicode.loop, stayConnected, decode_encode, Option.getD_some, if_neg hping]
  exact if_pos (Or.inr hword)

/-- **A chunk that is a line**, or a line without blanks at its end. -/
theorem loop_header (m : PrivMsg U) {front blanks : Str} (h : ∀ ch ∈ blanks, U.space ch = true)
    (htext : m.text ++ crlf = front ++ blanks) :
    U.loop (encode (m.header ++ front)) = (Line.privmsg m).expected := by
  -- it is neither the `PING` nor the `none` that stands for no data: both begin otherwise
  have hhead : (m.header ++ front).head? = some ':' := by
    rw [header_append]
    rfl
  have hping : m.header ++ front ≠ pingLine := fun heq => absurd (heq ▸ hhead) (by decide)
  have hnone : m.header ++ front ≠ ("none" : Str) := fun heq => absurd (heq ▸ hhead) (by decide)
  have hcrlf : ∀ ch ∈ crlf, U.space ch = true := by
    intro ch hch
    have hall : crlf.all (fun ch => ch.toNat < 128 && asciiSpace ch) = true := by decide
    obtain ⟨hlt, hblank⟩ := Bool.and_eq_true_iff.mp (List.all_eq_true.mp hall ch hch)
    exact (U.space_ascii ch (of_decide_eq_true hlt)).trans hblank
  have hstrip : U.strip front = U.strip m.text := by
    rw [← strip_append_blanks front h, ← htext, strip_append_blanks _ hcrlf]
  have hnick : U.firstWord (m.header ++ front) ≠ [] := by
    rw [firstWord_header]
    exact m.nick.ne_nil
  rw [Unicode.loop, stayConnected, decode_encode, Option.getD_some, if_neg hping]
  refine (if_neg (not_or.mpr ⟨hnone, hnick⟩)).trans ?_
  rw [firstWord_header, chatMsg_header, Option.getD_some, hstrip]
  rfl

theorem loop_pingLine : U.loop (encode pingLine) = [.pong] := by
  rw [Unicode.loop, stayConnected, decode_encode, Option.getD_some, if_pos rfl]
  exact if_pos (Or.inl rfl)

/-! ### Chunks -/

/-- **How a line should arrive**: a `PING` in a chunk of its own; a message in a chunk that has all
of it but blanks at its end, which may come in any number of chunks after it. -/
def Arrives : Line U → List ByteArray → Prop
  | .ping, chunks => chunks = [encode pingLine]
  | .privmsg m, chunks => ∃ (front : Str) (pieces : List Str),
      m.text ++ crlf = front ++ pieces.flatten ∧
        (∀ piece ∈ pieces, ∀ ch ∈ piece, U.space ch = true) ∧
        chunks = encode (m.header ++ front) :: pieces.map encode

/-- The bytes of a list of chunks. -/
def joined (chunks : List ByteArray) : ByteArray := chunks.foldr (· ++ ·) ByteArray.empty

/-- The bytes of a list of lines. -/
def stream (lines : List (Line U)) : ByteArray := encode (lines.flatMap Line.text)

theorem loop_of_arrives {line : Line U} {chunks : List ByteArray} (h : Arrives line chunks) :
    chunks.flatMap U.loop = line.expected := by
  cases line with
  | ping =>
    rw [Arrives] at h
    subst h
    rw [List.flatMap_singleton, loop_pingLine]
    rfl
  | privmsg m =>
    obtain ⟨front, pieces, htext, hblanks, rfl⟩ := h
    have hnil : (pieces.map encode).flatMap U.loop = [] := by
      rw [List.flatMap_map, List.flatMap_eq_nil_iff]
      exact fun piece hpiece => loop_blanks (hblanks piece hpiece)
    rw [List.flatMap_cons, hnil, List.append_nil]
    -- the first chunk has the text but for blanks
    refine loop_header m (fun ch hch => ?_) htext
    obtain ⟨piece, hpiece, hch⟩ := List.mem_flatten.mp hch
    exact hblanks piece hpiece ch hch

/-- **What is read is what was sent, if every line arrives as it should.** -/
theorem received_arrivals {lines : List (Line U)} {arrivals : List (List ByteArray)}
    (h : List.Forall₂ Arrives lines arrivals) :
    arrivals.flatten.flatMap U.loop = lines.flatMap Line.expected := by
  induction h with
  | nil => rfl
  | cons hline _ ih =>
    rw [List.flatten_cons, List.flatMap_append, ih, loop_of_arrives hline, List.flatMap_cons]

/-- A chunk gives one message at most. -/
theorem length_loop_le (chunk : ByteArray) : (U.loop chunk).length ≤ 1 := by
  rw [Unicode.loop, stayConnected]
  by_cases hping : (decode chunk).getD "none" = pingLine
  · rw [if_pos hping]
    exact (congrArg List.length (if_pos (Or.inl rfl))).le
  · rw [if_neg hping]
    simp only [List.nil_append]
    split_ifs
    · exact Nat.zero_le 1
    · exact le_rfl

theorem length_expected (line : Line U) : line.expected.length = 1 := by
  cases line <;> rfl

theorem length_received_le (chunks : List ByteArray) :
    (chunks.flatMap U.loop).length ≤ chunks.length := by
  induction chunks with
  | nil => exact le_rfl
  | cons chunk chunks ih =>
    rw [List.flatMap_cons, List.length_append, List.length_cons]
    have hchunk := length_loop_le (U := U) chunk
    omega

theorem length_flatMap_expected (lines : List (Line U)) :
    (lines.flatMap Line.expected).length = lines.length := by
  induction lines with
  | nil => rfl
  | cons line lines ih =>
    rw [List.flatMap_cons, List.length_append, length_expected, ih, List.length_cons, Nat.add_comm]

/-- Nonempty lists that are no more in all than there are lists have one element each. -/
theorem length_eq_one_of_length_flatten_le {α : Type} {groups : List (List α)}
    (hne : ∀ group ∈ groups, group ≠ []) (h : groups.flatten.length ≤ groups.length) :
    ∀ group ∈ groups, group.length = 1 := by
  -- no list is shorter than its share, so none is longer
  have hle : ∀ groups : List (List α), (∀ group ∈ groups, group ≠ []) →
      groups.length ≤ groups.flatten.length := by
    intro groups hne
    induction groups with
    | nil => exact le_rfl
    | cons group groups ih =>
      obtain ⟨hgroup, hgroups⟩ := List.forall_mem_cons.mp hne
      have hpos := List.length_pos_of_ne_nil hgroup
      have hrest := ih hgroups
      rw [List.flatten_cons, List.length_append, List.length_cons]
      omega
  induction groups with
  | nil => exact List.forall_mem_nil _
  | cons group groups ih =>
    obtain ⟨hgroup, hgroups⟩ := List.forall_mem_cons.mp hne
    have hpos := List.length_pos_of_ne_nil hgroup
    have hrest := hle groups hgroups
    rw [List.flatten_cons, List.length_append, List.length_cons] at h
    exact List.forall_mem_cons.mpr ⟨by omega, ih hgroups (by omega)⟩

theorem arrives_single (line : Line U) : Arrives line [encode line.text] := by
  cases line with
  | ping => rfl
  | privmsg m =>
    exact ⟨m.text ++ crlf, [], by rw [List.flatten_nil, List.append_nil],
      List.forall_mem_nil _, rfl⟩

/-- **Lines that are merged are lost**: of chunks made of whole lines, what is read is what was
sent just when every chunk is a single line. -/
theorem received_iff_of_merged {groups : List (List (Line U))}
    (hne : ∀ group ∈ groups, group ≠ []) :
    (groups.map stream).flatMap U.loop = groups.flatten.flatMap Line.expected ↔
      ∀ group ∈ groups, group.length = 1 := by
  constructor
  · intro h
    -- as many messages as lines, and no more of them than chunks
    refine length_eq_one_of_length_flatten_le hne ?_
    rw [← length_flatMap_expected, ← h, ← List.length_map (f := stream)]
    exact length_received_le _
  · intro h
    have hsingle : ∀ group ∈ groups, U.loop (stream group) = group.flatMap Line.expected := by
      intro group hgroup
      obtain ⟨line, rfl⟩ := List.length_eq_one_iff.mp (h group hgroup)
      have hline := loop_of_arrives (arrives_single line)
      rw [List.flatMap_singleton] at hline
      rw [stream, List.flatMap_singleton, List.flatMap_singleton, hline]
    rw [List.flatMap_map, List.flatMap_congr hsingle, ← List.flatMap_id, List.flatMap_assoc]
    rfl

theorem joined_append (chunks chunks' : List ByteArray) :
    joined (chunks ++ chunks') = joined chunks ++ joined chunks' := by
  induction chunks with
  | nil => exact ByteArray.empty_append.symm
  | cons chunk chunks ih =>
    change chunk ++ joined (chunks ++ chunks') = chunk ++ joined chunks ++ joined chunks'
    rw [ih, ByteArray.append_assoc]

theorem joined_map_encode (pieces : List Str) :
    joined (pieces.map encode) = encode pieces.flatten := by
  induction pieces with
  | nil => exact List.utf8Encode_nil.symm
  | cons piece pieces ih =>
    rw [List.flatten_cons, encode_append, ← ih]
    rfl

theorem joined_of_arrives {line : Line U} {chunks : List ByteArray} (h : Arrives line chunks) :
    joined chunks = encode line.text := by
  cases line with
  | ping =>
    rw [Arrives] at h
    subst h
    exact ByteArray.append_empty
  | privmsg m =>
    obtain ⟨front, pieces, htext, -, rfl⟩ := h
    change encode (m.header ++ front) ++ joined (pieces.map encode) = _
    rw [joined_map_encode, ← encode_append, Line.text, htext, List.append_assoc]

/-- Lines that arrive as they should make up the stream. -/
theorem joined_arrivals {lines : List (Line U)} {arrivals : List (List ByteArray)}
    (h : List.Forall₂ Arrives lines arrivals) : joined arrivals.flatten = stream lines := by
  induction h with
  | nil => rfl
  | cons hline _ ih =>
    rw [List.flatten_cons, joined_append, ih, joined_of_arrives hline, stream, stream,
      List.flatMap_cons, encode_append]

end

/-- **When the chat does not depend on how it is cut.**

* If every line arrives as it should, which is one way to cut the stream, the messages handled are
  those of the lines, each with its sender, and there is a `PONG` for every `PING`.
* If the stream is cut into whole lines, it is so just when no two come in one chunk.
* However it is cut, it is not so with fewer chunks than lines. -/
theorem received_chunks (U : Unicode) :
    (∀ (lines : List (Line U)) (arrivals : List (List ByteArray)),
      List.Forall₂ Arrives lines arrivals →
        joined arrivals.flatten = stream lines ∧
          arrivals.flatten.flatMap U.loop = lines.flatMap Line.expected) ∧
    (∀ groups : List (List (Line U)), (∀ group ∈ groups, group ≠ []) →
      ((groups.map stream).flatMap U.loop = groups.flatten.flatMap Line.expected ↔
        ∀ group ∈ groups, group.length = 1)) ∧
    ∀ (lines : List (Line U)) (chunks : List ByteArray),
      chunks.flatMap U.loop = lines.flatMap Line.expected → lines.length ≤ chunks.length := by
  refine ⟨fun lines arrivals h => ⟨joined_arrivals h, received_arrivals h⟩,
    fun groups hne => received_iff_of_merged hne, fun lines chunks h => ?_⟩
  rw [← length_flatMap_expected, ← h]
  exact length_received_le chunks

/-- A viewer, on their channel. -/
def viewer : Word Unicode.ascii := ⟨"viewer", by decide, List.all_eq_true.mp (by decide)⟩

/-- A viewer's `a`. -/
def viewerMsg : PrivMsg Unicode.ascii := ⟨viewer, viewer, viewer, viewer, "a", by decide⟩

/-- A `PING` and a message in chunks of their own, the end of the line in a third. -/
theorem received_chunks_viewer :
    ([encode pingLine, encode (viewerMsg.header ++ "a"), encode crlf].flatMap Unicode.ascii.loop) =
      [.pong, .handleChat "viewer" "a"] := by
  refine ((received_chunks Unicode.ascii).1 [.ping, .privmsg viewerMsg]
    [[encode pingLine], [encode (viewerMsg.header ++ "a"), encode crlf]] ?_).2.trans ?_
  · have hcrlf : ∀ ch ∈ crlf, asciiSpace ch = true := List.all_eq_true.mp (by decide)
    exact .cons rfl (.cons ⟨"a", [crlf], rfl, List.forall_mem_singleton.mpr hcrlf, rfl⟩ .nil)
  · decide

/-- **A `PING` and a message in one chunk**: there is no `PONG`, and the message is taken for one of
a user called `ping`. -/
theorem merged_ping :
    let lines : List (Line Unicode.ascii) := [.ping, .privmsg viewerMsg]
    joined [stream lines] = stream lines ∧ (stream lines).size ≤ 1024 ∧
      [stream lines].flatMap Unicode.ascii.loop =
        [.handleChat "ping"
          "ping :tmi.twitch.tv\r\n:viewer!viewer@viewer.tmi.twitch.tv privmsg #viewer :a"] ∧
      lines.flatMap Line.expected = [.pong, .handleChat "viewer" "a"] := by
  intro lines
  have hloop : Unicode.ascii.loop (stream lines) = [.handleChat "ping"
      "ping :tmi.twitch.tv\r\n:viewer!viewer@viewer.tmi.twitch.tv privmsg #viewer :a"] := by
    rw [Unicode.loop, stayConnected, stream, decode_encode]
    decide +kernel
  refine ⟨ByteArray.append_empty, by decide +kernel, ?_, by decide⟩
  rw [List.flatMap_singleton, hloop]

end Twitch

end SwitchController

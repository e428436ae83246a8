import Systemstat.Linux.Tokens

/-! # `/proc/net/sockstat`

The parsers of the two socket files and a rendering of the lines they read. A label
and a number may be any blanks apart, line ends among them; the first line and what
follows the orphans are taken up to the line end.
-/

namespace Systemstat.Linux

open Nom Text

structure ProcNetSockStat (w : Nat) where
  tcpInUse : BitVec w
  tcpOrphaned : BitVec w
  udpInUse : BitVec w

def procNetSockstat (w : Nat) : Parser (ProcNetSockStat w) :=
  preceded notLineEnding do
    let tcpInUse ← preceded (ws (tag "TCP: inuse".toList)) (usizeS w)
    let tcpOrphaned ← delimited (ws (tag "orphan".toList)) (usizeS w) notLineEnding
    let udpInUse ← preceded (ws (tag "UDP: inuse".toList)) (usizeS w)
    return ⟨tcpInUse, tcpOrphaned, udpInUse⟩

structure ProcNetSockStat6 (w : Nat) where
  tcpInUse : BitVec w
  udpInUse : BitVec w

def procNetSockstat6 (w : Nat) : Parser (ProcNetSockStat6 w) :=
  ws do
    let tcpInUse ← preceded (tag "TCP6: inuse".toList) (usizeS w)
    let udpInUse ← preceded (tag "UDP6: inuse".toList) (usizeS w)
    return ⟨tcpInUse, udpInUse⟩

def socketStats (w : Nat) (files : Files) : IoResult (SocketStats w) := do
  let data ← readFile files "/proc/net/sockstat"
  let sockstats ← parsed (procNetSockstat w data)
  let data ← readFile files "/proc/net/sockstat6"
  let sockstats6 ← parsed (procNetSockstat6 w data)
  return {
    tcpSocketsInUse := sockstats.tcpInUse
    tcpSocketsOrphaned := sockstats.tcpOrphaned
    udpSocketsInUse := sockstats.udpInUse
    tcp6SocketsInUse := sockstats6.tcpInUse
    udp6SocketsInUse := sockstats6.udpInUse }

/-! ## The rendered files -/

/-- The file of version 4: any first line, the two lines that are read, and what comes
after them. -/
structure SockStat (w : Nat) extends ProcNetSockStat w where
  first : Str
  first_body : LineBody first
  tcpRest : Str
  tcpRest_body : LineBody tcpRest
  tcpRest_head : ∃ c t, tcpRest = c :: t ∧ isMultispace c = false
  udpRest : Str
  udpRest_body : LineBody udpRest
  udpRest_head : udpRest = [] ∨ udpRest.head? = some ' '
  tail : Str

namespace SockStat

variable {w : Nat}

def tcpLine (s : SockStat w) : Str :=
  "TCP: inuse".toList ++ (' ' :: decimal s.tcpInUse.toNat ++
    (' ' :: "orphan".toList ++ (' ' :: decimal s.tcpOrphaned.toNat ++ (' ' :: s.tcpRest))))

def udpLine (s : SockStat w) : Str :=
  "UDP: inuse".toList ++ (' ' :: decimal s.udpInUse.toNat ++ s.udpRest)

def render (s : SockStat w) : Str :=
  s.first ++ '\n' :: (s.tcpLine ++ '\n' :: (s.udpLine ++ '\n' :: s.tail))

end SockStat

structure SockStat6 (w : Nat) extends ProcNetSockStat6 w where
  tail : Str

def SockStat6.render {w : Nat} (s : SockStat6 w) : Str :=
  "TCP6: inuse".toList ++ (' ' :: decimal s.tcpInUse.toNat ++ '\n' ::
    ("UDP6: inuse".toList ++ (' ' :: decimal s.udpInUse.toNat ++ '\n' :: s.tail)))

/-! ## Labels and numbers -/

variable {w : Nat}

/-- A label that begins with a visible character is found behind any blanks. -/
theorem skip_label {label : Str} (h : label.head?.map isMultispace = some false) (t : Str) :
    skip (label ++ t) = label ++ t := by
  cases label with
  | nil => cases h
  | cons c label =>
      rw [List.head?_cons, Option.map_some, Option.some.injEq] at h
      exact skip_cons_of_not_multispace h _

theorem label_yields {label i t : Str} (hi : skip i = label ++ t) :
    Yields (ws (tag label)) i (skip t) label :=
  ws_yields (hi ▸ tag_yields label t)

def BlankHead (t : Str) : Prop := ∀ c ∈ t.head?, isMultispace c = true

theorem blankHead_space (t : Str) : BlankHead (' ' :: t) := by
  intro c hc
  cases hc
  rfl

theorem blankHead_newline (t : Str) : BlankHead ('\n' :: t) := by
  intro c hc
  cases hc
  rfl

/-- A number takes the blanks on both sides, and nothing of what comes behind them. -/
theorem number_yields (n : BitVec w) {i rest : Str}
    (hi : skip i = skip (' ' :: decimal n.toNat ++ rest)) (hrest : BlankHead rest) :
    Yields (usizeS w) i (skip rest) n :=
  usizeS_toNat n (hi.trans (skip_spaces_decimal 1 n.toNat rest))
    fun c hc => not_isDigit_of_multispace (hrest c hc)

theorem labelled_yields (label : Str) (hlabel : label.head?.map isMultispace = some false)
    (n : BitVec w) {rest : Str} (hrest : BlankHead rest) :
    Yields (preceded (ws (tag label)) (usizeS w))
      ('\n' :: (label ++ (' ' :: decimal n.toNat ++ rest))) (skip rest) n := by
  have hskip : skip ('\n' :: (label ++ (' ' :: decimal n.toNat ++ rest))) =
      label ++ (' ' :: decimal n.toNat ++ rest) := by
    rw [skip_cons_of_multispace rfl, skip_label hlabel]
  exact (label_yields hskip).preceded (number_yields n (skip_skip _) hrest)

/-! ## Round trips -/

theorem tcpLine_append (s : SockStat w) (t : Str) : s.tcpLine ++ t =
    "TCP: inuse".toList ++ (' ' :: decimal s.tcpInUse.toNat ++ (' ' :: ("orphan".toList ++
      (' ' :: decimal s.tcpOrphaned.toNat ++ (' ' :: (s.tcpRest ++ t)))))) := by
  unfold SockStat.tcpLine
  -- the labels are long terms, and nothing depends on what they say
  generalize "TCP: inuse".toList = tcp, "orphan".toList = orphan
  simp only [List.append_assoc, List.cons_append]

theorem udpLine_append (s : SockStat w) (t : Str) : s.udpLine ++ t =
    "UDP: inuse".toList ++ (' ' :: decimal s.udpInUse.toNat ++ (s.udpRest ++ t)) := by
  unfold SockStat.udpLine
  generalize "UDP: inuse".toList = udp
  simp only [List.append_assoc]

/-- Behind the number of orphans only the rest of their line is taken. -/
theorem orphan_yields (s : SockStat w) (t : Str) :
    Yields (delimited (ws (tag "orphan".toList)) (usizeS w) notLineEnding)
      (skip (' ' :: ("orphan".toList ++
        (' ' :: decimal s.tcpOrphaned.toNat ++ (' ' :: (s.tcpRest ++ '\n' :: t))))))
      ('\n' :: t) s.tcpOrphaned := by
  have hrest : skip (' ' :: (s.tcpRest ++ '\n' :: t)) = s.tcpRest ++ '\n' :: t := by
    obtain ⟨c, u, hu, hc⟩ := s.tcpRest_head
    rw [hu, skip_cons_of_multispace rfl]
    exact skip_cons_of_not_multispace hc _
  have hnumber := number_yields s.tcpOrphaned (skip_skip _)
    (blankHead_space (s.tcpRest ++ '\n' :: t))
  rw [hrest] at hnumber
  refine (label_yields ?_).delimited hnumber (notLineEnding_lf s.tcpRest_body t)
  rw [skip_skip, skip_cons_of_multispace rfl, skip_label rfl]

theorem blankHead_udpRest (s : SockStat w) (t : Str) : BlankHead (s.udpRest ++ '\n' :: t) := by
  rcases s.udpRest_head with hnil | hspace
  · rw [hnil]
    exact blankHead_newline t
  · intro c hc
    rw [List.head?_append, hspace] at hc
    cases hc
    rfl

/-- No label and no number goes past its line, and none stops short. -/
theorem procNetSockstat_render (s : SockStat w) : ∃ rest,
    Yields (procNetSockstat w) s.render rest s.toProcNetSockStat := by
  have hfirst : Yields notLineEnding s.render _ s.first := notLineEnding_lf s.first_body _
  have hudp := labelled_yields "UDP: inuse".toList rfl s.udpInUse (blankHead_udpRest s s.tail)
  rw [tcpLine_append, udpLine_append] at hfirst
  refine ⟨skip (s.udpRest ++ '\n' :: s.tail), hfirst.preceded ?_⟩
  apply (labelled_yields "TCP: inuse".toList rfl s.tcpInUse (blankHead_space _)).bind
  exact (orphan_yields s _).bind (hudp.bind (.pure _ _))

theorem procNetSockstat6_render (s : SockStat6 w) : ∃ rest,
    Yields (procNetSockstat6 w) s.render rest s.toProcNetSockStat6 := by
  have hstart : skip s.render = s.render := skip_label rfl _
  have hline (t : Str) : skip ('\n' :: ("UDP6: inuse".toList ++ t)) = "UDP6: inuse".toList ++ t :=
    skip_label rfl t
  have htcp (t : Str) := number_yields s.tcpInUse rfl (blankHead_newline t)
  have hudp := number_yields s.udpInUse rfl (blankHead_newline s.tail)
  refine ⟨skip (skip ('\n' :: s.tail)), ws_yields ?_⟩
  rw [hstart]
  apply ((tag_yields "TCP6: inuse".toList _).preceded (htcp _)).bind
  rw [hline]
  exact ((tag_yields "UDP6: inuse".toList _).preceded hudp).bind (.pure _ _)

/-- Every number is published under its own label. -/
theorem socketStats_render (s : SockStat w) (s6 : SockStat6 w) :
    (∃ rest, Yields (procNetSockstat w) s.render rest s.toProcNetSockStat) ∧
    (∃ rest, Yields (procNetSockstat6 w) s6.render rest s6.toProcNetSockStat6) ∧
    ∀ files : Files, readFile files "/proc/net/sockstat" = .ok s.render →
      readFile files "/proc/net/sockstat6" = .ok s6.render →
      socketStats w files =
        .ok ⟨s.tcpInUse, s.tcpOrphaned, s.udpInUse, s6.tcpInUse, s6.udpInUse⟩ := by
  obtain ⟨rest, h⟩ := procNetSockstat_render s
  obtain ⟨rest6, h6⟩ := procNetSockstat6_render s6
  refine ⟨⟨rest, h⟩, ⟨rest6, h6⟩, fun files hread hread6 => ?_⟩
  have hparsed := parsed_yields h
  have hparsed6 := parsed_yields h6
  simp only [socketStats, hread, hread6, bind, Except.bind, hparsed, hparsed6]
  rfl

def idleSockStat : SockStat 64 where
  tcpInUse := 20
  tcpOrphaned := 0
  udpInUse := 1
  first := "sockets: used 925".toList
  first_body := by decide
  tcpRest := "tw 12 alloc 23 mem 2".toList
  tcpRest_body := by decide
  tcpRest_head := ⟨'t', "w 12 alloc 23 mem 2".toList, rfl, rfl⟩
  udpRest := " mem 2".toList
  udpRest_body := by decide
  udpRest_head := .inr rfl
  tail := "UDPLITE: inuse 0\n".toList

def idleSockStat6 : SockStat6 64 := ⟨⟨3, 1⟩, "UDPLITE6: inuse 0\n".toList⟩

theorem socketStats_render_idle :
    socketStats 64 (fun path => .ok (if path = "/proc/net/sockstat6" then idleSockStat6.render
      else idleSockStat.render)) = .ok ⟨20, 0, 1, 3, 1⟩ :=
  (socketStats_render idleSockStat idleSockStat6).2.2 _ rfl rfl

end Systemstat.Linux

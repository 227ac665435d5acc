import Sitecheck.Text.Case
import Sitecheck.Text.Normal
import Sitecheck.Text.Quoted

/-!
# Labels prepared for comparison

A label of a host name is prepared before it is written in ASCII: invisible
characters vanish, case is folded, forms are unified, and some characters and
mixtures of writing directions are refused.
-/

namespace Sitecheck.Url.Nameprep

inductive Refusal where
  | prohibited (point : List Char)
  | mixedDirection
  | unboundedDirection
  deriving DecidableEq

def Refusal.message : Refusal → String
  | .prohibited point => "Invalid character " ++ Text.quoted (String.ofList point)
  | .mixedDirection => "Violation of BIDI requirement 2"
  | .unboundedDirection => "Violation of BIDI requirement 3"

/-! ## Classes of characters -/

def vanishing : CharSet := .ofGaps
  "6RBpXB5nYBED26RD3EB1omDQ9FB"

def prohibited : CharSet := .ofGaps
  "4Y1HpVCzNB1XB48ABfHB26FQYI1VFGG48QMEB19yD90Y1bK1GaLB9PH1laHIcpZC1y0OC1y0OC1y0OC1y0OC1y0OC1y0OC
   1y0OC1y0OC1y0OC1y0OC1y0OC1y0OCBB1E3S1xvQ3w1I"

def rightToLeft : CharSet := .ofGaps
  "1kOBBBCBM1BFF1MBDBB1AFL1IDB3XHBHCTFBOCBB1B3F1MLB6nXB1nwVBBKBNBFBBBCBCB4E1HdZS2MC2C1ON4LFB5F"

def leftToRight : CharSet := .ofGaps
  "2N1AG1A1VBKBEBFXB1FBbLBS1C3QCJCHOCOFJB5JBLBBDBBBUB1SB1MK5BH2RB1MCCGQ1H1MCHB1NBByFBB2BDEIEDBHKCNR
   CBICCCWBHBBDEEDGCCCKBECBDEMCHKGECCWBHBCBCBCEDYEBBHKCDOBBHBBBDBWBHBCBFDEIBBCDBPBFKSCBICCCWBHBCCED
   CBBGCCCKBECBDELSBBGDDBEDCBBBCDCDDDIBDECBCDDBDKBPMODBIBDBXBKBFHE1BCEKSCBIBDBXBKBFEBBFCCBCJCHBBCEK
   SCBIBDBXBQEDFDBDKBICEKSCBSDYBJBBCHIDGISDM1WBCMHIN1LCBBCCBBCBGEBHBDBBBBCCBEBCJBCFBBJKCC1IYC1BBBBB
   FKB1IUBFBCE1YIBGCB1W1IBFBCBBEBGBHY2U1MK1PCBE3MF2QF3EGHB2LBBBECHBBBEC1NBBBEC1FBBBECHBBBECHBHBXB1F
   BBBECHB1NBTG1C1J3HMoGK1AF3DPNBEOSDCJSONBDP2DHIBCLHBBDK1MKG3KI1P1gP6AE3MGWCGC1MCGCIBBBBBBB1FC2BBH
   BBDDBHDECGENFDBHRB3UBNB5ABEBCKBBDFGBBBBBBEBDBHDDFFW1KgS2R1ABaC3A31JDZJHFCFE3IGDB3MBEF1OE3QB1O2E
   1TD1K1C1CD1YPME1VB4PE3VC1FB71E2WmbY3M18V21JbxS3O9cOC2H5THMF13T1AG1AL3LDGCGCGCDuX1FBEM1B6Z1MC1M
   1jpQ9MK1ND2JDJQCH1EE1WlA3HB2TBCCBCCCEBMBBBEBCB2NBECIBHB1CBEBFBBDHBdAEbEazY19mTm7DkWndtI1y0OC1y0O"

/-! ## Folding -/

def foldings : CharMap := .ofNumerals ""
  "6ZBB21O1QBC1sR1sR4CBC19AJ2CBB18Z4JBCR1fEdDBB1tE2BBC1yVAWBD1yWdPeD1GBDYAASBBDOHB1HM1AQDJL1ADBLOED
   BB1BfMBCxGzM6uTFC2qF19PY3DGEEA1V5VBBBgeU6ZBCejZexRCBDAA1LCBDAACCBDAA5A1Q1WCewGcUCACACACACACACANA
   CACACACACACACA1YACACACACACACACANACACACACACACACA4KACACACACACACACANACACACACACACACADDCSAf6JAJACBCK
   9DBBDAA9EFBCA9ECBBQEDCf6CAf6FARACBCS9DBBDAA9EFBCA9EGCDEdPeFAACDBCA4MBBDA4LALCDYA5BAACBBCHWCBCI3Q
   BBDA4LALDCf5UdQf5LAKACBCJ9DBBDAA9EFBCA9E6QBC1tT1sL3MBB1DBBC5YAEBBwWCBCwV12NCDB5NAADDBCAGDBBEBBCA
   CDFBECCAADBCCJBBDCPBBBCAQCBBMEBBAECB1VCDCBECCBBOLCB1sM1AGBB1uD4yYBDIYFCBCNKCBC1CCLICC1PDA1tCA1tD
   ADAACEALADDCSIDA1tCAEBC1tN1OBEDG1JAEAALAA1AAAVBCHNBDDJ1EAEAALAAIOCSMDA1tCA1tDADAEAGCDA1tCA1tDADA
   EAD1tKEACBCV1tVDBECieMLTBBDAieP4RBCCCZG1UCBCCRCCCGJAEJBCKJCBDAQKBBCAECCCGII1N1igTDC1HIAGAGBCDALF
   AAGBCC1A1CAANFC2qO2qQA1HAMUWTR1nbT1AB2rXCCCCCCCCCCCCCCCCCCCCCCCCC1B1AB1XCCCCCCCCCCCCCCCCCCCCCCCC
   C1B1AB1XCCCCCCCCCCCCCCCCCCCCCCCCC1BBB1XCCBECDBBGDCBGCDEBGCCCCIBECCCCCCC1B1AB1XCCCCCCCCCCCCCCCCCC
   CCCCCCC1BCB1XCCEBECCCDIBGCCCCCCCCHBECCCCCC1CCB1VCCEBECCCCFBECCCCCBBEEHBICCCCCC1C1AB1VCCCCCCCCCCC
   CCCCCCCCCCCCCC1B1AB1XCCCCCCCCCCCCCCCCCCCCCCCCC1B1AB1XCCCCCCCCCCCCCCCCCCCCCCCCC1B1AB1XCCCCCCCCCCC
   CCCCCCCCCCCCCC1B1AB1XCCCCCCCCCCCCCCCCCCCCCCCCC1B1AB1XCCCCCCCCCCCCCCCCCCCCCCCCC1FZB1rICCCCCCCCCCC
   CCCCCRWCCCCCCTBBLPZB1JCCCCCCCCCCCCCCCCRWCCCCCCTBBLPZB1JCCCCCCCCCCCCCCCCRWCCCCCCTBBLPZB1JCCCCCCCC
   CCCCCCCCRWCCCCCCTBBLPZB1JCCCCCCCCCCCCCCCCRWCCCCCCTBBL"

def lowered (c : Char) : List Char :=
  match foldings.find? c with
  | some folded => folded
  | none => Text.Case.lowerAt [] c []

/-- A character without case.  Unifying forms may bring case back, which is folded again. -/
def folded (c : Char) : List Char :=
  let once := lowered c
  let unified := Text.Normal.compatible once
  let twice := Text.Normal.compatible (unified.flatMap lowered)
  if unified = twice then once else twice

/-! ## Preparing -/

def unify (label : List Char) : List Char :=
  Text.Normal.compatible ((label.filter (!vanishing.mem ·)).flatMap folded)

/-- A label with characters from right to left has none from left to right, and
such characters at both ends. -/
def checkDirection (label : List Char) : Except Refusal Unit :=
  if label.any rightToLeft.mem then
    if label.any leftToRight.mem then .error .mixedDirection
    else if (label.head?.map rightToLeft.mem).getD false && (label.getLast?.map rightToLeft.mem).getD false
    then .ok ()
    else .error .unboundedDirection
  else .ok ()

def prepare (label : List Char) : Except Refusal (List Char) := do
  let unified := unify label
  match (Text.points unified).find? fun point => prohibited.mem (Text.lastChar point) with
  | some point => throw (.prohibited point)
  | none => pure ()
  checkDirection unified
  return unified

end Sitecheck.Url.Nameprep

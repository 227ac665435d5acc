import Sitecheck.Text.CharSet

/-!
# Printable characters

Letters, marks, numbers, punctuation, symbols and the space.  Controls, format
characters, private and unassigned code points and all other separators are not
printable, and quoting writes them as escapes.
-/

namespace Sitecheck.Text

def printable : CharSet := .ofGaps
  "1G3R1IMBrMCGEHBBBUBfHB1MC1YCDB2DI1BEGRWB7KB1WC2HC3XO2HC1XCPB1CCBBLF1FJ2WB6FBICCCWBHBBDECJCCCEIBE
   CBFCZCDBGECCWBHBCBCBCCBBFECCDDBHEBBHRKDBJBDBWBHBCBFCKBDBDCBPECMHHBDBICCCWBHBCBFCJCCCDHDECBFCSKCB
   GDDBEDCBBBCDCDDDMEFDDBECBGBOVFNBDBXBQCJBDBEHCBDCBCECKHWBDBXBKBFCJBDBEHCGCBECKBCNNBDB1ZBDBGEQC1AB
   DBSDYBJBBCHDBEGBBBIGKCDM2GE1D1LCBBBFBYBBBXCFBBBGCKCE1G2UB1KE1NB1KBPBN1L7QBBFBCeNBECHBBBEC1PBEC1H
   BECHBBBECPB2FBEC2PC1GD1AG3ICGCoQB1CD3LHWJYJUMNBDBCM3QCKGKGOBLG3LH1RF2SK1FBMEMEBD1QCFL1SE1AGLD2KC
   2NB1DCLGKGOC1F1X2ZD1VB4MI2IDPD2IH1RCLI1RFkOCGC1MCGCIBBBBBBB1FC2BBPBOCGBTCDBJRYI1VRCC1BBND1HP1HP
   5KEpNZLV1xSC1GBdLF1TBBFBC2EHCOYJHBHBHBHBHBHBHBHB4W1I1AB3LM8G1AMF2LB3IC3ZF1RB3QB3GM1VBvaRD2DJdKU
   7CI7VFCBBBFY2HDKG2EI2SIMG4ML1ED3ABLE1HB2DJOCKC3ZY1CKGCGCGJHBHB2IE4WCKGbxSMXE1X91CeCC4C1MHMFF1ABF
   BBBCBCB4VQhDC2CHB1G1QG1ZBTBEEFB5FE7IDGCGCGCDDHBHNCCMB1ABTBCBPCO1I4TFDE1TD3KBNDB1V1U5A1DD1XP1CE1K
   J1EF1RF1EB1LEO1Q6CCKG1KE1KE1OI2ALMBPBHBCBLBPBHBC2PbZJWKIYGB1QBJ2RGCBB1SBCDBCXB2UIJ1WTBCF1HD1BFB
   2M2EEUC1YBCFIBDB1DCDEKHJH2M1G1NEMJ2CD1DC1BF1AHEMH3C2V2D1ZN1ZH1UIKbI1FB1QBDCC3A1OI1QW1A1M1CUXJ3AE
   1KJ2KBFNZHKG2BBSI1NJ3SBULSB1S2NHBBBEBPBLG2HFKGEBICCCWBHBCBFBKCCCDCBGBFHCHDF5J3OBF1E2UIK6K2CC1M1I
   2RLKGNT2GGK2C1BCPEX7D2I3W3FMICBCIBCB1EBCCMJK2SIC1UCL1B2UI3FN2VaDJB1TBOK1DD1GCWBO2VHBCB1SDBBCBJIK
   GGBCB1LBCBGHKbYZ7BBP1YNzN3Y4HBFL7O2tK3VN15F4bTmL98BlXH1FBKE3DBKG1ECGK2SKKBHBVFTqM3N3X2XE2FHR2MFL
   CO6kAI1bQ1QJ9jREBHBCBbF1TDREIfG2gU4DFNDJHKCE50Y1UCXJ4M2I9MK1NC2WI4IV2S5YUM3JJZ5F3HB2TBCCBCCCEBMB
   BBHB2NBECIBHB1CBEBFBBDHBdCCbGCrAPFBP16M1F8RHBRCHBCBF8F1TDOCKECcI1FR2GFB1cAHBEBCBPB7PCQ1P2YEKECuF
   2Q2Y2J7MEB1BBCBBCBBKBEBBBBGBEBBBBBBDBCBBCBBBBBBBBBBCBBCEBHBEBEBBBKBRFDBFBR2ACaK1SE3WMPCPBPB1LK6S
   2E1DN1SEJHCOG5Y11WFQDND4MM3LHMEBPME2EIKG1OI1ECC3AdCMOCFDFDHJ1DDLFGKKGIIHJ5RB2D1LK13Q19nC1G4fTH8O
   C65QO7zL3bJkW1lY59Zl96R9G"

def isPrintable (c : Char) : Bool := printable.mem c

end Sitecheck.Text

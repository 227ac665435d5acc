import Sitecheck.Text.CharSet

/-!
# Letters and numbers

The letters of all scripts and every character with a numeric meaning, decimal
digits, other digits, numerals and fractions alike.
-/

namespace Sitecheck.Text

def alphanumeric : CharSet := .ofGaps
  "1WKH1AG1A1VBHCBBDCBDBXB1FBhQEMOFHBBB4ZFBCCEBBGBBDBBBUB3FB5JI6KB1MCBG1P2T1BEE1T1RVKECB3VBBPCHPCBQ
   BB1E1D3LLBO1RJCEBFWEBJBDBXZHLFYBGR1Q2G2CDBSBHKEKBQEICCCWBHBBDEDBQBNCBDEMCGCBIGECCWBHBCBCBC1FEBBH
   KCDQJBDBWBHBCBFDBSBPCEKJBLICCCWBHBCBFDB1ECBDEKBHLBBGDDBEDCBBBCDCDDDMWBVNSIBDBXBQDB1ADCBCCEKIHBBE
   IBDBXBKBFDB1FCBCEKBCRJBDB1PCBQBFDBKETBGFSDYBJBBCH1FKR1WBCMHJK1NCBBBFBYBBBKBCJBCFBBJKCE1GB1FUMIB
   1K1BF4L1RULGGEEDBDCHDENMBBKG1MBBFBC1RBcVBECHBBBEC1PBEC1HBECHBBBECPB2FBEC2POUDQQ3ICGDnWCRB1AF2XDL
   HSNTOSONBDP2A1JBEBDKGKWKG3LHFC1IBBF2SK1F1N1OCFL1SE1AGL1LXJ2B1RKGKNB3P1VRIDK1P1EN2E1A1K1CKD1XCJH
   1RCD1PEBGBCDBF7K2MaSCGC1MCGCIBBBBBBB1FC2BBHBBDDBHDECGENFDBH4LCCGFLGN3XBEBCKBBDFGBBBBBBEBLCEFFEBB
   2GrY2I3AWoG1E17O8VGEDCJBC1MBBFBC2EHBQXJHBHBHBHBHBHBHBH3CBiBDZJHFCFE3IGDB3MBEF1RB3QDEK1G1WQ1GK1EI
   BP1GK1NPcI71O2MnoF2P1UCaJD1CU1VQ1FC3C1NJC3ZC2MFCBBBFYQBDBEBXNGK2AO1Y1CKYGDBBCB1MKXZ1DH1V1CLGFBZB
   1PXDBIEKGXDBD1YBBDCCFCBBBYDCLHDMGCGCGJHBHB1RBOG4LNKGbxSMXE1X91CeCC4C1MHMFFBBKBNBFBBBCBCB4E1HdZS
   2MC2C1OM4MFB5FTKH1AG1AL3LDGCGCGCD1JMB1ABTBCBPCO1I4TM1TM2FRC9K1DD1XQ1BE1KJ1EF1MK1EC1KEIBF1Q6CCKG
   1KE1KE1OI2AMLBPBHBCBLBPBHBC2PbZJWKIYGB1QBJ2RGCBB1SBCDBCXC1FC1MIJ1WTBCF1HE1A2S2EEUC1VPEBDB1DKJX1F
   B1G1GIB1CGFQ2CKWC1BF1AXH3C2V2D1ZN1ZH1QMKbI1FB1QGC3A1OIWLE1BS1U1CUXM2B1A1EBCCBN1T1GZHKJ1KPKEBCBI
   1JDBM1WOELLBBEULSBZ3GHBBBEBPBKH1VRKLICCCWBHBCBFDBSBMF6C2BSEFKFD1E1WUCBBIK6K1V1PE1K1WUBLK1M1RNBHK
   2C1BVMEH7D1S4M3FMICBCIBCBYPBBBOK2SIC1NQBBB1CBK1OHBVBL1UTBS2VaDJB1LRBP1DF1E4IHBCB1MVBJKGGBCB1GOBH
   KbYT7HBPV1RzM3Y4HR7O2tK3TP15F4bTmL98BlXH1FBKG3BBKG1ES1WQEMKBHBVFTqM3J4B2XFB2ON2MCBB1C6kAI1bQ1QJ
   9jREBHBCBbF1TDREIfG2gU4DFNDJHK63IU4EZ5F3HB2TBCCBCCCEBMBBBHB2NBECIBHB1CBEBFBBDHBdCCZBZB1FBZB1FBZB
   1FBZB1FBZBIC1Y1wY1FiN1TKHCKEBcJ1ES1SEK1cGHBEBCBPB7PCJ1W2QHBEKuL2HBDBE2Y1TBP7MEB1BBCBBCBBKBEBBBBG
   BEBBBBBBDBCBBCBBBBBBBBBBCBBCEBHBEBEBBBKBRFDBFBRmIN2zFK13Q19nC1G4fTH8OC65QO7zL3bJkW1lY59Z"

def isAlphanumeric (c : Char) : Bool := alphanumeric.mem c

end Sitecheck.Text

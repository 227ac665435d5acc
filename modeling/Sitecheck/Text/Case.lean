import Sitecheck.Text.CharMap

/-!
# Upper and lower case

Case mappings of the whole character set.  A few characters map to several.  A
capital sigma becomes a final sigma where it ends a word.
-/

namespace Sitecheck.Text

namespace Case

def lowerMap : CharMap := .ofNumerals
  "2N1AB2M4XXB2MYHB2M1OYCC1YDCCHICCRXCC1UBB9HBDCCIBBgEBCCCEBBfWBBBCCCBfUCBBCDBB6CBBBfOBBBfQBBBCCBB
   fUBBBfYCBBgGBBBgCBBBCEBBgGBBBgKCBBgMBDCCGBBgUBBBCCBBgUDBBCCBBgUBBBCCCBgSCCCCEBBgWBBBCEBBCIBBEBBB
   CCBBEBBBCCBBEBJCCTJCCTBBEBCCCEBB7LBBB4HBUCC1OBB9ZCJCCYBBn2KBBBCCBBcNBBBn2EDBBCCBBeZBBB5IBBB5MBFC
   CbMCCCGBBCJBB8YHBB2YCDB2WEBB4YCCB4WDRB2MSJB2M1SBBQJMCC1CBB4PDBBCCBBNBBBCDDB9ZDQB6EQ1GB2M3CRCC1Q
   1BCC2CBB1EBHCCP1WCC3T1MB3S34P1MBfiU1NBBfiUGBBfiUrV3CB2b1O3CGBQ2cY1RB6fJ1TDB6fJcL2XCC6CBBg9TC1WCC
   4AIBPQGBPQIBPQIBPQGBPRECPPIBP1GIBPQIBPQIBPQCBPCCB5RCBBRMEB6PEBBRMCBPCCB7ROCBPCCB8PCBBNMCB9VCCB9R
   CBBRbMBBg2FEBBhwVBBBhnNHBB2E1UQB1G1JBBCvN1AB2A1zU1WB3S3SBBCCBBmyJBBB85JBBBmxDDDCCGBBn1FBBBmyVBBB
   n1LBBBn1JCBBCDBBCJCBn3XC1YCC4DCCCHBBCx6KXCC2MOCC6GHCCQ1FCC2TCCCEBB23hVBFCCNBBCCBB2icHDCCCGKCCUBB
   2ieLBBB2ifHBBB2ieZBBB2ieFBBB2ieLCBB2iaPBBB2icLBBB2iaVBBB1zKBICCQBB3RBBB2ieJBBB23lVBCCCJBBCGCCC1F
   BBCnuI1AB2M1bZ1OB3C6U1KB3C7KLB3AMPB3AQHB3AICB3A1wE1ZB4Y3bK1GB2MnfC1GB2MxkQ1IB2Q"
  "bSBC8C1nQ"

def upperMap : CharMap := .ofNumerals
  "3T1AB2L3GBB1lE1RXB2LYHB2LHBB9ICYCB1WBBhVCDCBHICBRXCB1VDCBFBBnBBBBfADCCBFBBBEBBBGBBBDBB7MEBBBBBB
   cOEBBaADDCBHBBBFBBBDBBBECCBFBBBEBBBCBB4IGBBBBBBDCBBBBBBDCBBBBBBDCICBPBB6BCJCBTBBBBBBDCBBBEUCB1QJ
   CBZBBBDCBn3YDBBBFFCBJBBn1MBBBn1GBBBn1KBBBgDBBBfVCCBfTDBBfNCBBfPBBB2ifIEBBfTBBB2ifACBBfXCBB2icIBB
   B2ieMCBBgBBBBgFBBB2ieMBBBmyKBBB2ieGDBBgFCBBmyWBBBgJDBBgLIBBmxEDBBgTCBB2ieKBBBgTEBB2icMBBBgTBBB5H
   BCBgRCBB5LGBBgVLBB2iaWBBB2iaQ6LBB6M1SCCBGBBBEDBaA1XBB2XBDB2VERB2LRBB2JBJB2LJBB4XBCB4VDBB4TBBB4JE
   BB3PBBB4DBBBPCMCBXBB6PBBB6DBBBOBBB8XCBB7JDBBBDBBB2B1GB2L1GQB6DRRCB1Q1BCB2DHCBNBB1DC1WCB5O1MB3R
   34P1RB6fK1TDB6fKtJGBP2cABBddBBBBdcZBBBdcHBCBdcDCBBdcFBBBdbRBBBd7LBBB23cU9HBB23hWEBB85KRBB23lW4L
   2XCB5YBB4NG1WCB3RIBQQGBQQIBQQIBQQGBQRECQPIBQQCB5SCEB6QECB7SCCB9WCCB8QCCB9S2ACBQOBBfeFSCBQQCBQFBB
   OdXBB2D1IQB1FUBBBwM1AB1Z20Q1WB3R1XBBBEBBn2JBBBn2DCDCBLBBBDBBBL1YCB4DCCBHBBBN1MBfiT1NBBfiTGBBfiT
   x4EXCB2MOCB6GHCBQ1FCB2TCCBFFCBNBBBFCCBDBB3SDKCB1EICBTCCBJBBBGCCB1FBBBxDBB1zJ1D3CB2b1NmxH1AB2L1cH
   1OB3B6U1KB3B7JLB2ZMPB2ZQHB2ZICB2Z1xD1ZB4X3aE1GB2LnfC1GB2LxkS1IB2P"
  "8PBC6K6K4CBC1bMJ6LBC1cD1iAgABD1tEHV1GBDYAAiDBCuU19C6uTFC2oZ15XY3DGEEA1V5V7ABC1uU6OCBDAA1LCBDAACC
   BDAA5A1Q1WCezIaICACACACACACACANACACACACACACACA1YACACACACACACACANACACACACACACACA4KACACACACACACACA
   NACACACACACACACADDC5UAfeNAVACBCW6RBBDAA6SFBCA6SGDCffUAffHA1BACBC1C6RBBDAA6SFBCA6SGCDEbDbTAACDBCA
   4MBBDA4LALCDYA5BAACBBCHWCBCI3QBBDA4LALDCfhYbEfhPA1ZACBC2A6RBBDAA6SFBCA6S1nwMDC1uR1tLAGAGBCDALFAA
   GBCC1A1CAANFC2pI2pKA1HAMUWTR"

/-- Letters that have case and are not passed over when a word's end is sought. -/
def cased : CharSet := .ofGaps
  "2N1AG1A1VBKBEBFXB1FB7NBEE8AB1B7KECCDDBBGBBDBBBUB3FB5JI6KB1MJ1P31F1MBBFBC1RCDpW3ICG2bUJH1RCD2M1S
   2LNB1I3XaSCGC1MCGCIBBBBBBB1FC2BBHBBDDBHDECGENFDBHaBBEBCKBBDFGBBBBBBEBGEBCEFFEBR1GDCvL2A1xU4UC3ZG
   EDCM1MBBFBx4C1US1C5E3ABXDEB2HFCBBBF1BCDBvP1RFJH3CloIHMF13T1AG1A19T3C3S1KE1K4MLBPBHBCBLBPBHBC1uP
   1ZN1Z36Z2MncQ2MrrK3HB2TBCCBCCCEBMBBBHB2NBECIBHB1CBEBFBBDHBdCCZBZB1FBZB1FBZB1FBZB1FBZBI1yYKBU2pH
   2Q26A1AG1AG1A"

def ignored : CharSet := .ofGaps
  "1NBGBLB1JBBB2TBEBBBEBCCjJ7KECEBJCBB9RH7ZBFB1X1TBBBCBCBB1SBLGKLBB1JBKVQB3XIBKBE1HBBB1E1B3NL2GLEBC
   BYY1RD1SBHCGI1P2G2DBBBEIEBDHKCNBPB2GBEEIBUC1ABCC2FBECECCDDB1ECDBLC2FBEFBCEBUCWGBB2GBCBBEIBHCLC1E
   B2JBMB1YBDB2DBBDFDBEHCLC1DB2GBCBGBFCUC1CC2FCEEIBUC1DB2UBHDBB3MBCHLJ3UBCJJBBG2WC1BBBBBB2DOBFBCFLB
   1KJB3YEBGBCCCZCEDQENBCCGBPB3QBnKD10KD1DC1EC1EC2MCBHIBCLDBFB1TF1ZB2NC1IB4ODECJBGD8LCCB2GBBHBBBBCI
   GKCB1NBI1F1XE1WBBFBBFB1OJMC1GECCBD2EBBCDBBD2GICC2MG3EDBNBHEBGBDC1Y2LNB1I3XhDBBDLDNDNDNCMFICKBCBC
   F1XFBKBBNBQN1Z1H35RC4JD4VBPB3S1G1VBiBB1KEDFFB3PG3PDudUB1cCGaKB3UEBKBB1CE3CCO1I3ABXD3ZDDCIBDBEBZC
   FB5VC1ASNB1MIZL1UD1WBCECCRBVC2OGCCCCMBIB1JBLB1ZBBDCCFCBB1BBOCFCBB3WFJD4RBCBEBlnSB5RRmBQDBMQ1IBCB
   6NBHBGBLB1JBBB1VB1TC2PBVDjTB8SB5TF13PGB1QBJmKDBCFE1ODEB6JCmBEeXC5XL1XE4TB2CP1PBCCKD1XECCCBEBKB1Y
   D1KFBI2KBMC2AJKECB3RDCBBCGB6EBDIVC2FCDB1LHDF7NICDBBXB3GGBBECBC9EEGCBC1BC3HICBBC4CBBBCGBB3XDCEBF
   9ZJBC9WCBBEB5OECCEB1GK1OGCEIBJGCD1UNBCfQHBGBB3EWCHBCBC4SGDBBCBHBB2UCDBBBdJC5tBJeyTF2HHJE13VB2LR
   2MCBChiPEBHBC3gGCBE50U1UCXkYDJQCH1EE5SD24D2DE1YIBOBWFBP1gIHBRCHBCBFaBOeEB2JE1lWH4FI2xFFnfhPB1E3S
   4Y9G"

def meetsCased (text : List Char) : Bool :=
  match text.find? (fun c => !ignored.mem c) with
  | some c => cased.mem c
  | none => false

/-- Lower case of one character between the characters before it, nearest
first, and those after it. -/
def lowerAt (behind : List Char) (c : Char) (ahead : List Char) : List Char :=
  if c.toNat < 0x80 then [c.toLower]
  else if c = 'Σ' then
    if meetsCased behind && !meetsCased ahead then ['ς'] else ['σ']
  else lowerMap.apply c

def lowerFrom : (behind text : List Char) → List Char
  | _, [] => []
  | behind, c :: ahead => lowerAt behind c ahead ++ lowerFrom (c :: behind) ahead

def upperChar (c : Char) : List Char :=
  if c.toNat < 0x80 then [c.toUpper]
  else upperMap.apply c

end Case

def lower (text : String) : String := String.ofList (Case.lowerFrom [] text.toList)

def upper (text : String) : String := String.ofList (text.toList.flatMap Case.upperChar)

end Sitecheck.Text
